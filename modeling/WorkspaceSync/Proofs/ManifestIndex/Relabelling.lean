import WorkspaceSync.Proofs.ManifestIndex.MergeOrder

/-!
# Files change owners at once

After a relabelling every file is with its present owner and no list has been lost, whatever the new
owners are: targets may trade their files in circles of any length, hand them on along a chain, or
pass them to targets that had none. `relabel_at_once` says so of every linked index; that an index
is linked, and that an assignment gives no target two files, can be read off the lists of values and
keys. As nothing is lost on the way, only the last of two relabellings counts.
-/

namespace WorkspaceSync.ManifestIndex

variable {i : ManifestIndex} {owners later : SortedMap FilePath Label} {p : FilePath} {l : Label}

/-! ## Reading off the links -/

/-- No target has two files if no label is listed twice. -/
theorem assigns_iff_nodup : Assigns owners ↔ owners.values.Nodup := by
  constructor
  · intro assigns
    refine List.pairwise_map.2 (owners.sorted.imp_of_mem ?_)
    intro e f he hf before same
    have one : e.1.Same f.1 :=
      assigns (SortedMap.get?_of_mem he) (same ▸ SortedMap.get?_of_mem hf)
    rw [FilePath.Same, before] at one
    cases one
  · intro nodup p q l hp hq
    obtain ⟨a, ha, hap⟩ := SortedMap.get?_eq_some_iff.1 hp
    obtain ⟨b, hb, hbq⟩ := SortedMap.get?_eq_some_iff.1 hq
    have one : (a, l) = (b, l) := List.inj_on_of_nodup_map nodup ha hb rfl
    have spelled : a = b := (Prod.mk.inj one).1
    exact FilePath.Same.trans (FilePath.Same.symm hap) (spelled ▸ hbq)

theorem mem_keys_dependencies_iff :
    l ∈ i.dependencies.keys ↔ (i.dependencies.get? l).isSome = true := by
  rw [SortedMap.mem_keys_iff_get?, Option.isSome_iff_exists]

/-- The owners are the labels that have lists, each once. -/
theorem linked_iff_perm : i.Linked ↔ i.owners.values.Perm i.dependencies.keys := by
  constructor
  · intro h
    apply (List.perm_ext_iff_of_nodup (assigns_iff_nodup.1 h.injective)
      i.dependencies.keys_nodup).2
    intro l
    rw [SortedMap.mem_values_iff, mem_keys_dependencies_iff, h.labels]
  · intro perm
    have nodup : i.owners.values.Nodup := perm.nodup_iff.2 i.dependencies.keys_nodup
    refine ⟨assigns_iff_nodup.2 nodup, ?_⟩
    intro l
    rw [← mem_keys_dependencies_iff, ← perm.mem_iff, SortedMap.mem_values_iff]

instance (owners : SortedMap FilePath Label) : Decidable (Assigns owners) :=
  decidable_of_iff _ assigns_iff_nodup.symm

instance (i : ManifestIndex) : Decidable i.Linked := decidable_of_iff _ linked_iff_perm.symm

/-! ## What a relabelling does -/

/-- Every file of the index has an owner in the assignment. -/
def Covers (owners : SortedMap FilePath Label) (i : ManifestIndex) : Prop :=
  ∀ p ∈ i.owners.keys, owners.contains p = true

instance (owners : SortedMap FilePath Label) (i : ManifestIndex) : Decidable (Covers owners i) :=
  List.decidableBAll _ _

theorem exists_mem_keys (tracked : (i.owners.get? p).isSome = true) :
    ∃ q ∈ i.owners.keys, q.Same p := by
  rw [← SortedMap.contains_eq_isSome] at tracked
  exact SortedMap.contains_iff.1 tracked

theorem Covers.isSome (covers : Covers owners i) (p : FilePath)
    (tracked : (i.owners.get? p).isSome = true) : (owners.get? p).isSome = true := by
  obtain ⟨q, hq, same⟩ := exists_mem_keys tracked
  rw [← owners.get?_congr same, ← SortedMap.contains_eq_isSome]
  exact covers q hq

/-- Files are neither lost nor added nor spelled anew. -/
theorem Linked.keys_relabel (h : i.Linked) (owners : SortedMap FilePath Label) :
    (i.relabel owners).owners.keys = i.owners.keys := by
  obtain ⟨rest, eq, -⟩ := h.relabel_eq owners
  rw [eq]
  refine Fold.foldl_inv (fun s : ManifestIndex => s.owners.keys = i.owners.keys) rfl ?_
  intro s kept m hm
  obtain ⟨-, former, ho, -⟩ := mem_moves_iff.1 (mem_carried_iff.1 hm).1
  have tracked : i.owners.contains m.file = true := by
    rw [SortedMap.contains_eq_isSome, ho, Option.isSome_some]
  rw [← kept]
  apply SortedMap.keys_insert_of_contains
  rwa [SortedMap.contains_iff, kept, ← SortedMap.contains_iff]

/-- Only the last of two relabellings counts. -/
theorem Linked.relabel_relabel (h : i.Linked) (assigns : Assigns owners) (covers : Covers owners i)
    (assigns' : Assigns later) (covers' : Covers later i) :
    (i.relabel owners).relabel later = i.relabel later := by
  have once := h.relabel assigns covers.isSome
  have keys := h.keys_relabel owners
  have covers'' : Covers later (i.relabel owners) := by rwa [Covers, keys]
  have twice := once.linked.relabel assigns' covers''.isSome
  have direct := h.relabel assigns' covers'.isSome
  have owner : ((i.relabel owners).relabel later).owners = (i.relabel later).owners := by
    apply SortedMap.eq_of_get?_eq_of_keys i.owners
    · intro a ha
      rwa [once.linked.keys_relabel, keys] at ha
    · intro a ha
      rwa [h.keys_relabel] at ha
    · intro p
      rw [twice.owner, direct.owner, once.owner]
      cases ho : i.owners.get? p with
      | none => rfl
      | some old =>
        obtain ⟨l, hl⟩ := Option.isSome_iff_exists.1 (covers.isSome p (by rw [ho]; rfl))
        rw [Option.bind_some, hl, Option.bind_some, Option.bind_some]
  apply twice.linked.eq_of_spelledAt_eq direct.linked
  intro p
  rw [spelledAt, spelledAt, twice.snapshot, once.snapshot, direct.snapshot, owner, twice.list,
    once.list, direct.list]

/-- All files of a linked index move at once to owners of which no one gets two files. The files
stay, each is with its new owner, and the list of the new owner is the one that the file's former
owner had; no other target has a list, and no signature changes. -/
theorem relabel_at_once (h : i.Linked) (assigns : Assigns owners) (covers : Covers owners i) :
    (i.relabel owners).owners.keys = i.owners.keys ∧
    (∀ p ∈ i.owners.keys, ∃ old l deps,
      i.owners.get? p = some old ∧ i.dependencies.get? old = some deps ∧
      owners.get? p = some l ∧ (i.relabel owners).owners.get? p = some l ∧
      (i.relabel owners).dependencies.get? l = some deps) ∧
    (∀ l ∈ (i.relabel owners).dependencies.keys,
      ∃ p ∈ i.owners.keys, (i.relabel owners).owners.get? p = some l) ∧
    (i.relabel owners).snapshot = i.snapshot := by
  have relabelled := h.relabel assigns covers.isSome
  refine ⟨h.keys_relabel owners, ?_, ?_, relabelled.snapshot⟩
  · intro p hp
    obtain ⟨old, he⟩ := SortedMap.mem_keys_iff.1 hp
    have ho : i.owners.get? p = some old := SortedMap.get?_of_mem he
    obtain ⟨l, hl⟩ := Option.isSome_iff_exists.1 (covers.isSome p (by rw [ho, Option.isSome_some]))
    obtain ⟨deps, hd⟩ := Option.isSome_iff_exists.1 ((h.labels old).2 ⟨p, ho⟩)
    refine ⟨old, l, deps, ho, hd, hl, ?_, ?_⟩
    · rw [relabelled.owner, ho, Option.bind_some, hl]
    · rw [h.get?_dependencies_relabel assigns ho hl, hd]
  · intro l hl
    obtain ⟨p, ho⟩ := (relabelled.linked.labels l).1 (mem_keys_dependencies_iff.1 hl)
    obtain ⟨q, hq, same⟩ := exists_mem_keys (i := i.relabel owners) (by rw [ho, Option.isSome_some])
    refine ⟨q, ?_, ?_⟩
    · rwa [h.keys_relabel] at hq
    · rw [(i.relabel owners).owners.get?_congr same, ho]

/-! ## A circle and a chain -/

/-- A target of the package `paint`. -/
def paintTarget (name : String) (valid : Label.IsTargetName name) : Label :=
  .inWorkspace "paint" name (by decide) valid

def redTarget : Label := paintTarget "red" (by decide)

def greenTarget : Label := paintTarget "green" (by decide)

def blueTarget : Label := paintTarget "blue" (by decide)

def oldTarget : Label := paintTarget "old" (by decide)

def newTarget : Label := paintTarget "new" (by decide)

/-- Four files, each with an owner and one jar. -/
def fourFiles : ManifestIndex where
  snapshot := .empty
  owners := .ofList
    [(⟨"f/1"⟩, redTarget), (⟨"f/2"⟩, greenTarget), (⟨"f/3"⟩, blueTarget), (⟨"f/4"⟩, oldTarget)]
  dependencies := .ofList
    [(redTarget, ["1.jar"]), (greenTarget, ["2.jar"]), (blueTarget, ["3.jar"]),
      (oldTarget, ["4.jar"])]

/-- Three targets trade their files in a circle, and the fourth one hands its file on. -/
def circleAndChain : SortedMap FilePath Label :=
  .ofList
    [(⟨"f/1"⟩, greenTarget), (⟨"f//2"⟩, blueTarget), (⟨"f/./3"⟩, redTarget), (⟨"f/4"⟩, newTarget)]

theorem circle_and_chain_relabelled :
    fourFiles.Linked ∧ Assigns circleAndChain ∧ Covers circleAndChain fourFiles ∧
      (fourFiles.relabel circleAndChain).dependencies.get? redTarget = some ["3.jar"] ∧
      (fourFiles.relabel circleAndChain).dependencies.get? newTarget = some ["4.jar"] ∧
      oldTarget ∉ (fourFiles.relabel circleAndChain).dependencies.keys := by
  have linked : fourFiles.Linked := by decide
  have assigns : Assigns circleAndChain := by decide
  have covers : Covers circleAndChain fourFiles := by decide
  obtain ⟨-, moved, others, -⟩ := relabel_at_once linked assigns covers
  have list {p : FilePath} {old l : Label} {deps : List String} (hp : p ∈ fourFiles.owners.keys)
      (former : fourFiles.owners.get? p = some old)
      (had : fourFiles.dependencies.get? old = some deps)
      (new : circleAndChain.get? p = some l) :
      (fourFiles.relabel circleAndChain).dependencies.get? l = some deps := by
    obtain ⟨old', l', deps', former', had', new', -, has⟩ := moved p hp
    cases former.symm.trans former'
    cases had.symm.trans had'
    cases new.symm.trans new'
    exact has
  refine ⟨linked, assigns, covers, ?_, ?_, ?_⟩
  · exact list (p := ⟨"f/3"⟩) (by decide) rfl rfl rfl
  · exact list (p := ⟨"f/4"⟩) (by decide) rfl rfl rfl
  · intro mem
    obtain ⟨p, hp, owner⟩ := others oldTarget mem
    obtain ⟨_, l, _, -, -, new, owner', -⟩ := moved p hp
    cases owner.symm.trans owner'
    have gone : ∀ p ∈ fourFiles.owners.keys, circleAndChain.get? p ≠ some oldTarget := by decide
    exact gone p hp new

end WorkspaceSync.ManifestIndex
