import WorkspaceSync.FileSystem.Disk
import WorkspaceSync.Proofs.SnapshotDiff

/-!
# Differences partition their paths

A difference puts every path into at most one of its lists and says what becomes of its signature;
`Partitions` is the whole of it, path by path, in terms of what was read and of the earlier
snapshot. It leaves nothing open but the spelling of the paths (`Partitions.agrees`), so a
difference depends on the order of the paths only as far as the readings do: of spellings of one
path the first is read.
-/

namespace WorkspaceSync

namespace SnapshotDiff

/-- A list has a path, in whatever spelling. -/
def Lists (paths : List FilePath) (p : FilePath) : Prop := ∃ q ∈ paths, q.Same p

/-- Strictly increasing, so that no path stands in the list twice. -/
def Increasing (paths : List FilePath) : Prop := paths.Pairwise fun p q => compare p q = .lt

/-- What was read at a path, under the first of its spellings among those asked for. -/
def reading? (mode : SignatureMode) (v : FileView) (paths : List FilePath) (p : FilePath) :
    Option SignatureReading :=
  (paths.find? fun q => q.Same p).map fun q => .ofResult (FileSignature.compute mode v q)

/-- All spellings of a path that are asked for give the same reading. -/
def ReadAlike (mode : SignatureMode) (v : FileView) (paths : List FilePath) : Prop :=
  ∀ p ∈ paths, ∀ q ∈ paths, p.Same q →
    SignatureReading.ofResult (FileSignature.compute mode v p) =
      .ofResult (FileSignature.compute mode v q)

/-- Each path is asked for in one spelling. -/
def SpelledAlike (paths : List FilePath) : Prop := ∀ p ∈ paths, ∀ q ∈ paths, p.Same q → p = q

/-- The lists of a difference. -/
def lists (d : SnapshotDiff) : List (List FilePath) := [d.added, d.updated, d.removed, d.unreadable]

/-- What a difference is to say, given the earlier snapshot and what was read at each path that was
asked for. -/
structure Partitions (previous : Snapshot) (read : FilePath → Option SignatureReading)
    (d : SnapshotDiff) : Prop where
  increasing : ∀ l ∈ d.lists, Increasing l
  disjoint : d.lists.Pairwise fun l m => ∀ p, ¬ (Lists l p ∧ Lists m p)
  added : ∀ p, Lists d.added p ↔ (∃ s, read p = some (.signed s)) ∧ previous.get? p = none
  updated : ∀ p, Lists d.updated p ↔
    ∃ s old, read p = some (.signed s) ∧ previous.get? p = some old ∧ s ≠ old
  unreadable : ∀ p, Lists d.unreadable p ↔ read p = some .unreadable
  removed : ∀ p, Lists d.removed p ↔
    (∃ old, previous.get? p = some old) ∧ (read p = none ∨ read p = some .missing)
  snapshot : ∀ p s, d.snapshot.get? p = some s ↔
    read p = some (.signed s) ∨ read p = some .unreadable ∧ previous.get? p = some s
  lost : ∀ p, Lists d.removed p ↔ (∃ old, previous.get? p = some old) ∧ d.snapshot.get? p = none

/-- The same lists and the same snapshot, up to the spelling of paths. -/
structure Agrees (d e : SnapshotDiff) : Prop where
  lists : List.Forall₂ (List.Forall₂ FilePath.Same) d.lists e.lists
  snapshot : d.snapshot.Matches e.snapshot

/-! ## Increasing lists -/

theorem increasing_keys {β : Type} (m : SortedMap FilePath β) : Increasing m.keys :=
  List.pairwise_map.2 m.sorted

theorem eq_nil_of_no_lists {l : List FilePath} (h : ∀ p, ¬ Lists l p) : l = [] := by
  rw [List.eq_nil_iff_forall_not_mem]
  intro p mem
  exact h p ⟨p, mem, .refl p⟩

theorem lists_iff_of_forall₂ {l m : List FilePath} (h : List.Forall₂ FilePath.Same l m)
    (p : FilePath) : Lists l p ↔ Lists m p := by
  induction h with
  | nil => rfl
  | @cons a b l m same _ ih =>
    have head : a.Same p ↔ b.Same p := ⟨same.symm.trans, same.trans⟩
    unfold Lists at ih ⊢
    rw [List.exists_mem_cons_iff, List.exists_mem_cons_iff, head, ih]

/-- The paths of an increasing list as a set. -/
def toSet (l : List FilePath) (h : Increasing l) : SortedSet FilePath :=
  ⟨l.map fun p => (p, ()), List.pairwise_map.2 h⟩

theorem get?_toSet {l : List FilePath} (h : Increasing l) {p : FilePath} {u : Unit} :
    (toSet l h).get? p = some u ↔ Lists l p := by
  simp [SortedMap.get?_eq_some_iff, toSet, Lists, FilePath.Same]

/-- Increasing lists of the same paths differ in spelling alone. -/
theorem forall₂_of_lists_iff {l m : List FilePath} (hl : Increasing l) (hm : Increasing m)
    (h : ∀ p, Lists l p ↔ Lists m p) : List.Forall₂ FilePath.Same l m := by
  have sets : (toSet l hl).Matches (toSet m hm) := by
    rw [SortedMap.matches_iff]
    intro p
    apply Option.ext
    intro u
    rw [get?_toSet, get?_toSet, h]
  have entries := List.forall₂_map_left_iff.1 (List.forall₂_map_right_iff.1 sets)
  exact entries.imp fun p q same => same.1

/-! ## What the lists hold -/

section Readings

variable {previous : Snapshot} {readings : SortedMap FilePath SignatureReading} {p : FilePath}

theorem lists_keys_filter_iff {β : Type} {m : SortedMap FilePath β}
    {keep : FilePath → β → Bool}
    (congr : ∀ {a b : FilePath} (v : β), a.Same b → keep a v = keep b v) :
    Lists (m.filter keep).keys p ↔ ∃ v, m.get? p = some v ∧ keep p v = true := by
  constructor
  · rintro ⟨q, listed, same⟩
    obtain ⟨v, mem, kept⟩ := SortedMap.mem_keys_filter.1 listed
    exact ⟨v, SortedMap.get?_eq_some_iff.2 ⟨q, mem, same⟩, congr v same ▸ kept⟩
  · rintro ⟨v, found, kept⟩
    obtain ⟨q, mem, same⟩ := SortedMap.get?_eq_some_iff.1 found
    exact ⟨q, SortedMap.mem_keys_filter.2 ⟨v, mem, (congr v same).trans kept⟩, same⟩

theorem lists_added_iff : Lists (ofReadings previous readings).added p ↔
    (∃ s, readings.get? p = some (.signed s)) ∧ previous.get? p = none := by
  rw [ofReadings, lists_keys_filter_iff fun v same => by rw [previous.contains_congr same]]
  constructor
  · rintro ⟨r, found, kept⟩
    cases r with
    | signed s => exact ⟨⟨s, found⟩, by simpa [SortedMap.contains_eq_isSome] using kept⟩
    | missing => cases kept
    | unreadable => cases kept
  · rintro ⟨⟨s, found⟩, new⟩
    exact ⟨_, found, by simp [SortedMap.contains_eq_isSome, new]⟩

theorem lists_updated_iff : Lists (ofReadings previous readings).updated p ↔
    ∃ s old, readings.get? p = some (.signed s) ∧ previous.get? p = some old ∧ s ≠ old := by
  rw [ofReadings, lists_keys_filter_iff fun v same => by rw [previous.get?_congr same]]
  constructor
  · rintro ⟨r, found, kept⟩
    cases r with
    | signed s =>
      cases tracked : previous.get? p with
      | none => simp [tracked] at kept
      | some old => exact ⟨s, old, found, rfl, by simpa [tracked] using kept⟩
    | missing => cases kept
    | unreadable => cases kept
  · rintro ⟨s, old, found, tracked, changed⟩
    exact ⟨_, found, by simp [tracked, changed]⟩

theorem lists_unreadable_iff : Lists (ofReadings previous readings).unreadable p ↔
    readings.get? p = some .unreadable := by
  rw [ofReadings, lists_keys_filter_iff fun v same => rfl]
  simp

theorem lists_removed_iff : Lists (ofReadings previous readings).removed p ↔
    (∃ old, previous.get? p = some old) ∧
      (readings.get? p = none ∨ readings.get? p = some .missing) := by
  rw [Lists, exists_mem_removed_iff, SortedMap.contains_eq_isSome, Option.isSome_iff_exists]

/-- The paths that are removed are those that the new snapshot has lost. -/
theorem lists_removed_iff_lost : Lists (ofReadings previous readings).removed p ↔
    (∃ old, previous.get? p = some old) ∧
      (ofReadings previous readings).snapshot.get? p = none := by
  rw [lists_removed_iff]
  apply and_congr_right
  rintro ⟨old, tracked⟩
  rw [get?_snapshot, tracked]
  cases readings.get? p with
  | none => simp
  | some r => cases r <;> simp [SignatureReading.next?]

theorem partitions_ofReadings (previous : Snapshot)
    (readings : SortedMap FilePath SignatureReading) :
    Partitions previous readings.get? (ofReadings previous readings) where
  increasing := by
    simp only [lists, List.forall_mem_cons, List.not_mem_nil, false_implies, implies_true, and_true]
    exact ⟨increasing_keys _, increasing_keys _, increasing_keys _, increasing_keys _⟩
  disjoint := by
    simp only [lists, List.pairwise_cons, List.forall_mem_cons, List.not_mem_nil, false_implies,
      implies_true, and_true, List.Pairwise.nil]
    simp only [lists_added_iff, lists_updated_iff, lists_unreadable_iff, lists_removed_iff]
    refine ⟨⟨?_, ?_, ?_⟩, ⟨?_, ?_⟩, ?_⟩
    · rintro p ⟨⟨-, new⟩, s, old, -, tracked, -⟩
      simp [new] at tracked
    · rintro p ⟨⟨-, new⟩, tracked, -⟩
      simp [new] at tracked
    · rintro p ⟨⟨⟨s, signed⟩, -⟩, unread⟩
      simp [signed] at unread
    · rintro p ⟨⟨s, old, signed, -⟩, -, gone⟩
      simp [signed] at gone
    · rintro p ⟨⟨s, old, signed, -⟩, unread⟩
      simp [signed] at unread
    · rintro p ⟨⟨-, gone⟩, unread⟩
      simp [unread] at gone
  added p := lists_added_iff
  updated p := lists_updated_iff
  unreadable p := lists_unreadable_iff
  removed p := lists_removed_iff
  snapshot p s := by
    rw [get?_snapshot]
    cases readings.get? p with
    | none => simp
    | some r => cases r <;> simp [SignatureReading.next?]
  lost p := lists_removed_iff_lost

end Readings

namespace Partitions

variable {previous : Snapshot} {read read' : FilePath → Option SignatureReading}
  {d e : SnapshotDiff}

theorem get?_snapshot_of_signed (h : Partitions previous read d) {p : FilePath} {s : FileSignature}
    (signed : read p = some (.signed s)) : d.snapshot.get? p = some s :=
  (h.snapshot p s).2 (.inl signed)

theorem lists_iff (h : Partitions previous read d) (h' : Partitions previous read e) :
    List.Forall₂ (fun l m => ∀ p, Lists l p ↔ Lists m p) d.lists e.lists := by
  refine .cons ?_ (.cons ?_ (.cons ?_ (.cons ?_ .nil)))
  · intro p
    rw [h.added, h'.added]
  · intro p
    rw [h.updated, h'.updated]
  · intro p
    rw [h.removed, h'.removed]
  · intro p
    rw [h.unreadable, h'.unreadable]

/-- What is said of each path determines a difference up to the spelling of paths. -/
theorem agrees (h : Partitions previous read d) (h' : Partitions previous read e) : d.Agrees e where
  lists := by
    rw [List.forall₂_iff_zip]
    obtain ⟨length, same⟩ := List.forall₂_iff_zip.1 (h.lists_iff h')
    refine ⟨length, fun {l m} mem => ?_⟩
    obtain ⟨inD, inE⟩ := List.of_mem_zip mem
    exact forall₂_of_lists_iff (h.increasing l inD) (h'.increasing m inE) (same mem)
  snapshot := by
    rw [SortedMap.matches_iff]
    intro p
    apply Option.ext
    intro s
    rw [h.snapshot, h'.snapshot]

/-- A signature was read where the new snapshot has it and the path is not unreadable. -/
theorem signed_iff (h : Partitions previous read d) {p : FilePath} {s : FileSignature} :
    read p = some (.signed s) ↔ d.snapshot.get? p = some s ∧ ¬ Lists d.unreadable p := by
  rw [h.snapshot, h.unreadable]
  constructor
  · intro signed
    exact ⟨.inl signed, by simp [signed]⟩
  · rintro ⟨signed | ⟨unread, -⟩, other⟩
    · exact signed
    · exact absurd unread other

/-- Differences that agree come of the same readings, paths apart that were not asked for. -/
theorem read_eq_of_agrees (h : Partitions previous read d) (h' : Partitions previous read' e)
    (agrees : d.Agrees e) {p : FilePath} (asked : read p ≠ none) (asked' : read' p ≠ none) :
    read p = read' p := by
  have unreadable : Lists d.unreadable p ↔ Lists e.unreadable p := by
    obtain _ | ⟨-, _ | ⟨-, _ | ⟨-, _ | ⟨same, -⟩⟩⟩⟩ := agrees.lists
    exact lists_iff_of_forall₂ same p
  have signed : ∀ s, read p = some (.signed s) ↔ read' p = some (.signed s) := by
    intro s
    rw [h.signed_iff, h'.signed_iff, SortedMap.matches_iff.1 agrees.snapshot, unreadable]
  have unread : read p = some .unreadable ↔ read' p = some .unreadable := by
    rw [← h.unreadable, ← h'.unreadable, unreadable]
  obtain ⟨r, first⟩ := Option.ne_none_iff_exists'.1 asked
  obtain ⟨r', second⟩ := Option.ne_none_iff_exists'.1 asked'
  simp only [first, second] at signed unread ⊢
  cases r with
  | signed s => exact ((signed s).1 rfl).symm
  | unreadable => exact (unread.1 rfl).symm
  | missing =>
    cases r' with
    | signed s => exact (signed s).2 rfl
    | unreadable => exact unread.2 rfl
    | missing => rfl

/-- The same readings change nothing for the snapshot that they made. -/
theorem again (h : Partitions previous read d) (h' : Partitions d.snapshot read e) :
    e.added = [] ∧ e.updated = [] ∧ e.removed = [] ∧
      ∀ p, e.snapshot.get? p = d.snapshot.get? p := by
  refine ⟨eq_nil_of_no_lists fun p => ?_, eq_nil_of_no_lists fun p => ?_,
    eq_nil_of_no_lists fun p => ?_, fun p => Option.ext fun s => ?_⟩
  · rw [h'.added]
    rintro ⟨⟨s, signed⟩, new⟩
    simp [h.get?_snapshot_of_signed signed] at new
  · rw [h'.updated]
    rintro ⟨s, old, signed, tracked, changed⟩
    rw [h.get?_snapshot_of_signed signed] at tracked
    exact changed (Option.some.inj tracked)
  · rw [h'.removed]
    rintro ⟨⟨s, tracked⟩, gone⟩
    obtain signed | ⟨unread, -⟩ := (h.snapshot p s).1 tracked
    · simp [signed] at gone
    · simp [unread] at gone
  · rw [h'.snapshot, h.snapshot]
    constructor
    · rintro (signed | ⟨-, kept⟩)
      · exact .inl signed
      · exact kept
    · rintro (signed | ⟨unread, tracked⟩)
      · exact .inl signed
      · exact .inr ⟨unread, .inr ⟨unread, tracked⟩⟩

end Partitions

/-! ## Readings of a list of paths -/

section Paths

variable {mode : SignatureMode} {v : FileView} {paths others : List FilePath} {p : FilePath}

theorem get?_readingsOf (mode : SignatureMode) (v : FileView) (paths : List FilePath) :
    (readingsOf mode v paths).get? = reading? mode v paths := by
  funext p
  have same (q : FilePath) : (compare q p == .eq) = decide (q.Same p) := by
    rw [Bool.eq_iff_iff, beq_iff_eq, decide_eq_true_iff]
    rfl
  rw [SortedMap.get?, readingsOf, SortedMap.entryAt?_map, SortedSet.ofList_eq_ofListFirst,
    SortedMap.entryAt?_ofListFirst, List.find?_map]
  simp [reading?, same, Function.comp_def]

theorem reading?_eq_none_iff : reading? mode v paths p = none ↔ ¬ Lists paths p := by
  simp [reading?, Lists]

theorem reading?_congr {q : FilePath} (same : p.Same q) :
    reading? mode v paths p = reading? mode v paths q := by
  rw [← get?_readingsOf]
  exact SortedMap.get?_congr _ same

theorem ReadAlike.reading?_eq (alike : ReadAlike mode v paths) (within : ∀ q ∈ others, q ∈ paths)
    (mem : p ∈ others) :
    reading? mode v others p = some (.ofResult (FileSignature.compute mode v p)) := by
  have listed : (others.find? fun q => q.Same p).isSome := by
    rw [List.find?_isSome]
    exact ⟨p, mem, decide_eq_true (FilePath.Same.refl p)⟩
  obtain ⟨q, found⟩ := Option.isSome_iff_exists.1 listed
  have same : q.Same p := by simpa using List.find?_some found
  have read := alike q (within q (List.mem_of_find?_eq_some found)) p (within p mem) same
  rw [reading?, found, Option.map_some, read]

theorem SpelledAlike.mem_toList_ofList_iff (alike : SpelledAlike paths) :
    p ∈ (SortedSet.ofList paths).toList ↔ p ∈ paths := by
  constructor
  · exact SortedSet.mem_of_mem_toList_ofList
  · intro mem
    obtain ⟨q, listed, same⟩ := SortedSet.exists_mem_toList_ofList mem
    rwa [← alike q (SortedSet.mem_of_mem_toList_ofList listed) p mem same]

theorem SpelledAlike.readingsOf_eq (alike : SpelledAlike paths)
    (elements : ∀ p, p ∈ others ↔ p ∈ paths) :
    readingsOf mode v others = readingsOf mode v paths := by
  have alike' : SpelledAlike others := fun p mem q mem' =>
    alike p ((elements p).1 mem) q ((elements q).1 mem')
  have sets : SortedSet.ofList others = SortedSet.ofList paths := by
    apply SortedMap.eq_of_entryAt?_eq
    intro p
    apply Option.ext
    rintro ⟨q, ⟨⟩⟩
    have entry (l : List FilePath) :
        (q, ()) ∈ (SortedSet.ofList l).entries ↔ q ∈ (SortedSet.ofList l).toList := by
      rw [SortedSet.toList, SortedMap.mem_keys_iff]
      constructor
      · exact fun h => ⟨(), h⟩
      · rintro ⟨⟨⟩, h⟩
        exact h
    rw [SortedMap.entryAt?_eq_some_iff, SortedMap.entryAt?_eq_some_iff, entry, entry,
      alike.mem_toList_ofList_iff, alike'.mem_toList_ofList_iff, elements]
  rw [readingsOf, sets, readingsOf]

theorem partitions_readingsOf (mode : SignatureMode) (v : FileView) (previous : Snapshot)
    (paths : List FilePath) : Partitions previous (reading? mode v paths)
      (ofReadings previous (readingsOf mode v paths)) := by
  rw [← get?_readingsOf]
  exact partitions_ofReadings previous (readingsOf mode v paths)

/-- Of lists of the same paths the differences agree if and only if what was read first does. -/
theorem agrees_iff (elements : ∀ p, p ∈ others ↔ p ∈ paths) {previous : Snapshot} :
    (ofReadings previous (readingsOf mode v paths)).Agrees
        (ofReadings previous (readingsOf mode v others)) ↔
      ∀ p ∈ paths, reading? mode v paths p = reading? mode v others p := by
  have first := partitions_readingsOf mode v previous paths
  have second := partitions_readingsOf mode v previous others
  constructor
  · intro agrees p mem
    apply first.read_eq_of_agrees second agrees
    · rw [ne_eq, reading?_eq_none_iff, not_not]
      exact ⟨p, mem, .refl p⟩
    · rw [ne_eq, reading?_eq_none_iff, not_not]
      exact ⟨p, (elements p).2 mem, .refl p⟩
  · intro same
    have reads : reading? mode v paths = reading? mode v others := by
      funext p
      by_cases asked : Lists paths p
      · obtain ⟨q, mem, spelled⟩ := asked
        rw [← reading?_congr spelled, ← reading?_congr spelled, same q mem]
      · have unasked : ¬ Lists others p := by
          rintro ⟨q, mem, spelled⟩
          exact asked ⟨q, (elements q).1 mem, spelled⟩
        rw [reading?_eq_none_iff.2 asked, reading?_eq_none_iff.2 unasked]
    exact first.agrees (reads ▸ second)

theorem snapshot_again (previous : Snapshot) (readings : SortedMap FilePath SignatureReading) :
    (ofReadings (ofReadings previous readings).snapshot readings).snapshot =
      (ofReadings previous readings).snapshot := by
  obtain ⟨-, -, -, kept⟩ := (partitions_ofReadings previous readings).again
    (partitions_ofReadings (ofReadings previous readings).snapshot readings)
  apply SortedMap.eq_of_get?_eq_of_keys readings _ _ kept
  · exact fun a => SortedMap.mem_keys_of_mem_keys_filterMap
  · exact fun a => SortedMap.mem_keys_of_mem_keys_filterMap

/-- Whatever was tracked before and whatever is read, the differ says of each path what is to be
said, and changes nothing when it is run again. The order and the repetition of paths make no
difference at all if each path is spelled in one way, and none but in spelling if all spellings of a
path are read alike, or just those that come first in the one list and in the other. -/
theorem update_partitions (mode : SignatureMode) (v : FileView) (cancelled : Cancellation)
    (previous : Snapshot) (paths : List FilePath)
    (clear : ∀ p ∈ paths, cancelled (.signature p) = false) :
    ∃ d, update mode v cancelled previous paths = .ok d ∧
      Partitions previous (reading? mode v paths) d ∧
      (∀ others, (∀ p, p ∈ others ↔ p ∈ paths) →
        ∃ e, update mode v cancelled previous others = .ok e ∧
          (SpelledAlike paths → e = d) ∧
          (ReadAlike mode v paths → d.Agrees e) ∧
          (d.Agrees e ↔ ∀ p ∈ paths, reading? mode v paths p = reading? mode v others p)) ∧
      ∃ e, update mode v cancelled d.snapshot paths = .ok e ∧ e.added = [] ∧ e.updated = [] ∧
        e.removed = [] ∧ e.unreadable = d.unreadable ∧ e.snapshot = d.snapshot := by
  have partitions := partitions_readingsOf mode v previous paths
  refine ⟨_, update_of_clear_on clear, partitions, ?_, _, update_of_clear_on clear, ?_⟩
  · intro others elements
    have clear' : ∀ p ∈ others, cancelled (.signature p) = false := fun p mem =>
      clear p ((elements p).1 mem)
    refine ⟨_, update_of_clear_on clear', ?_, ?_, agrees_iff elements⟩
    · intro spelled
      rw [spelled.readingsOf_eq elements]
    · intro alike
      rw [agrees_iff elements]
      intro p mem
      rw [alike.reading?_eq (fun q mem => mem) mem,
        alike.reading?_eq (fun q mem => (elements q).1 mem) ((elements p).2 mem)]
  · obtain ⟨added, updated, removed, -⟩ := partitions.again (partitions_readingsOf mode v _ paths)
    exact ⟨added, updated, removed, rfl, snapshot_again previous (readingsOf mode v paths)⟩

/-- A disk with a regular file in the current directory. -/
def oneFile : Disk := Disk.put .empty ["", "f"] (.file [49] 0)

theorem update_of_one_file :
    ∃ d, update .content oneFile.view .never .empty [⟨"f"⟩, ⟨"g"⟩, ⟨"f"⟩] = .ok d ∧
      Lists d.added ⟨"f"⟩ ∧ update .content oneFile.view .never .empty [⟨"g"⟩, ⟨"f"⟩] = .ok d := by
  have clear : ∀ p ∈ [⟨"f"⟩, ⟨"g"⟩, ⟨"f"⟩], Cancellation.never (.signature p) = false :=
    fun _ _ => rfl
  obtain ⟨d, ran, partitions, others, -⟩ :=
    update_partitions .content oneFile.view .never .empty [⟨"f"⟩, ⟨"g"⟩, ⟨"f"⟩] clear
  have read : reading? .content oneFile.view [⟨"f"⟩, ⟨"g"⟩, ⟨"f"⟩] ⟨"f"⟩ =
      some (.signed (.content (ContentHash.ofBytes [49]))) := by decide +kernel
  have spelled : SpelledAlike [⟨"f"⟩, ⟨"g"⟩, ⟨"f"⟩] := by
    unfold SpelledAlike
    decide +kernel
  have elements : ∀ p : FilePath, p ∈ [⟨"g"⟩, ⟨"f"⟩] ↔ p ∈ [⟨"f"⟩, ⟨"g"⟩, ⟨"f"⟩] := by
    intro p
    simp only [List.mem_cons, List.not_mem_nil, or_false]
    tauto
  obtain ⟨e, reordered, same, -⟩ := others [⟨"g"⟩, ⟨"f"⟩] elements
  exact ⟨d, ran, (partitions.added _).2 ⟨⟨_, read⟩, rfl⟩, same spelled ▸ reordered⟩

/-- A separator at the end asks for a directory, so the two spellings are read differently. -/
theorem first_spelling_decides :
    (FilePath.mk "f").Same ⟨"f/"⟩ ∧
      (update .content oneFile.view .never .empty [⟨"f"⟩, ⟨"f/"⟩]).map
          (fun d => (d.added, d.unreadable)) = .ok ([⟨"f"⟩], []) ∧
      (update .content oneFile.view .never .empty [⟨"f/"⟩, ⟨"f"⟩]).map
          (fun d => (d.added, d.unreadable)) = .ok ([], [⟨"f/"⟩]) := by
  decide +kernel

end Paths

end SnapshotDiff

end WorkspaceSync
