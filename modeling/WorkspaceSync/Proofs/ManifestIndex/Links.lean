import WorkspaceSync.ManifestIndex.Basic
import WorkspaceSync.Proofs.Fold
import WorkspaceSync.Proofs.Label
import WorkspaceSync.Proofs.SortedMap

/-!
# Files, owners and lists

In an index that is linked no target owns two files, and exactly the owners have lists; so every
list belongs to one file. Evicting and recording then change one file alone, and moving files to
other owners changes no list of a file, however many targets trade files with each other.
-/

namespace WorkspaceSync.ManifestIndex

variable {i : ManifestIndex} {p q file : FilePath} {l : Label} {deps : List String}

/-- The list that was loaded from a file. -/
def list? (i : ManifestIndex) (p : FilePath) : Option (List String) :=
  (i.owners.get? p).bind i.dependencies.get?

structure Linked (i : ManifestIndex) : Prop where
  injective : ∀ {p q l}, i.owners.get? p = some l → i.owners.get? q = some l → p.Same q
  labels : ∀ l, (i.dependencies.get? l).isSome = true ↔ ∃ p, i.owners.get? p = some l

theorem list?_congr (i : ManifestIndex) (h : p.Same q) : i.list? p = i.list? q := by
  rw [list?, list?, i.owners.get?_congr h]

theorem list?_of_owner (h : i.owners.get? p = some l) : i.list? p = i.dependencies.get? l := by
  rw [list?, h, Option.bind_some]

theorem list?_of_no_owner (h : i.owners.get? p = none) : i.list? p = none := by
  rw [list?, h, Option.bind_none]

theorem Linked.list?_isSome (h : i.Linked) (p : FilePath) :
    (i.list? p).isSome = (i.owners.get? p).isSome := by
  cases hp : i.owners.get? p with
  | none => rw [list?_of_no_owner hp]; rfl
  | some l => rw [list?_of_owner hp, (h.labels l).2 ⟨p, hp⟩]; rfl

theorem linked_empty : empty.Linked where
  injective h := by simp [empty] at h
  labels l := by simp [empty]

/-! ## Eviction -/

@[simp] theorem snapshot_evict (i : ManifestIndex) (file : FilePath) :
    (i.evict file).snapshot = i.snapshot := by
  unfold evict
  split <;> rfl

theorem get?_owners_evict (i : ManifestIndex) (file p : FilePath) :
    (i.evict file).owners.get? p = if p.Same file then none else i.owners.get? p := by
  unfold evict
  split
  · rename_i hn
    split
    · rename_i hp
      exact (i.owners.get?_congr hp).trans hn
    · rfl
  · exact i.owners.get?_erase file p

theorem get?_dependencies_evict (i : ManifestIndex) (file : FilePath) (l : Label) :
    (i.evict file).dependencies.get? l =
      if i.owners.get? file = some l then none else i.dependencies.get? l := by
  unfold evict
  split
  · rename_i hn
    simp [hn]
  · rename_i m hm
    simp only [SortedMap.get?_erase_eq, hm, Option.some.injEq, eq_comm]

theorem Linked.list?_evict (h : i.Linked) (file p : FilePath) :
    (i.evict file).list? p = if p.Same file then none else i.list? p := by
  rw [list?, get?_owners_evict]
  split
  · rfl
  · rename_i hp
    cases ho : i.owners.get? p with
    | none => rw [list?_of_no_owner ho, Option.bind_none]
    | some l =>
      rw [Option.bind_some, get?_dependencies_evict, list?_of_owner ho, if_neg]
      intro hf
      exact hp (h.injective ho hf)

theorem Linked.evict (h : i.Linked) (file : FilePath) : (i.evict file).Linked where
  injective {p q l} hp hq := by
    rw [get?_owners_evict] at hp hq
    split at hp
    · cases hp
    · split at hq
      · cases hq
      · exact h.injective hp hq
  labels l := by
    rw [get?_dependencies_evict]
    split
    · rename_i hf
      refine ⟨fun hn => by simp at hn, ?_⟩
      rintro ⟨p, hp⟩
      rw [get?_owners_evict] at hp
      split at hp
      · cases hp
      · rename_i hpf
        exact absurd (h.injective hp hf) hpf
    · rename_i hf
      rw [h.labels]
      constructor
      · rintro ⟨p, hp⟩
        refine ⟨p, ?_⟩
        rw [get?_owners_evict, if_neg, hp]
        intro hpf
        exact hf (i.owners.get?_congr hpf ▸ hp)
      · rintro ⟨p, hp⟩
        rw [get?_owners_evict] at hp
        split at hp
        · cases hp
        · exact ⟨p, hp⟩

theorem Linked.evictAll (h : i.Linked) (files : List FilePath) :
    (files.foldl ManifestIndex.evict i).Linked :=
  Fold.foldl_inv Linked h fun _ hs f _ => hs.evict f

theorem snapshot_evictAll (i : ManifestIndex) (files : List FilePath) :
    (files.foldl ManifestIndex.evict i).snapshot = i.snapshot :=
  Fold.foldl_inv (fun s : ManifestIndex => s.snapshot = i.snapshot) rfl fun s hs f _ => by
    rw [snapshot_evict, hs]

theorem Linked.evictAll_frame (h : i.Linked) {files : List FilePath}
    (hp : ∀ f ∈ files, ¬ f.Same p) :
    (files.foldl ManifestIndex.evict i).owners.get? p = i.owners.get? p ∧
      (files.foldl ManifestIndex.evict i).list? p = i.list? p := by
  have evictions : Fold.Local ManifestIndex.evict Linked
      (fun s k => (s.owners.get? k, s.list? k)) FilePath.Same files :=
    { keeps := fun _ hs f _ => hs.evict f
      frame := fun s hs f _ k hf => by
        have other : ¬ k.Same f := fun hkf => hf hkf.symm
        simp [get?_owners_evict, hs.list?_evict, other] }
  exact Prod.mk.inj (evictions.foldl_frame h hp)

theorem owners_evictAll (i : ManifestIndex) {files : List FilePath}
    (hp : ∃ f ∈ files, f.Same p) :
    (files.foldl ManifestIndex.evict i).owners.get? p = none := by
  obtain ⟨f, hf, hfp⟩ := hp
  induction files generalizing i with
  | nil => simp at hf
  | cons g files ih =>
    rcases List.mem_cons.1 hf with rfl | hf
    · -- Once evicted, a file gets no owner again.
      rw [List.foldl_cons]
      refine Fold.foldl_inv (fun s : ManifestIndex => s.owners.get? p = none) ?_
        fun s hs g _ => ?_
      · rw [get?_owners_evict, if_pos hfp.symm]
      · rw [get?_owners_evict, hs, ite_self]
    · exact ih _ hf

/-! ## Moving files to other owners -/

section Relabel

variable {owners : SortedMap FilePath Label}

theorem mem_moves_iff : (q, l) ∈ i.moves owners ↔
    (q, l) ∈ owners.entries ∧ ∃ old, i.owners.get? q = some old ∧ old ≠ l := by
  rw [moves, List.mem_filter]
  apply and_congr_right
  intro _
  cases h : i.owners.get? q <;> simp [h]

theorem moves_pairwise (i : ManifestIndex) (owners : SortedMap FilePath Label) :
    (i.moves owners).Pairwise fun m n => ¬ m.1.Same n.1 :=
  (owners.sorted.filter _).imp fun hlt heq => by
    rw [FilePath.Same, hlt] at heq
    cases heq

/-- The lists without that of the owner of a file. -/
def withoutList (i : ManifestIndex) (table : DependencyTable) (p : FilePath) : DependencyTable :=
  match i.owners.get? p with
  | none => table
  | some old => table.erase old

theorem get?_withoutList (i : ManifestIndex) (table : DependencyTable) (p : FilePath) (l : Label) :
    (i.withoutList table p).get? l =
      if i.owners.get? p = some l then none else table.get? l := by
  unfold withoutList
  cases i.owners.get? p with
  | none => simp
  | some old => simp only [SortedMap.get?_erase_eq, Option.some.injEq, eq_comm]

theorem takeOut_eq (i : ManifestIndex) (acc : List Move) (table : DependencyTable)
    (m : FilePath × Label) : i.takeOut (acc, table) m =
      (acc ++ [⟨m.1, m.2, (i.owners.get? m.1).bind table.get?⟩], i.withoutList table m.1) := by
  unfold takeOut withoutList
  cases i.owners.get? m.1 <;> rfl

/-- Taking out finds the list of each file as it was, since no two files have one owner, and leaves
the lists of all other owners. -/
theorem Linked.foldl_takeOut (h : i.Linked) {ms : List (FilePath × Label)}
    (distinct : ms.Pairwise fun m n => ¬ m.1.Same n.1) (acc : List Move) (table : DependencyTable)
    (intact : ∀ m ∈ ms, ∀ old, i.owners.get? m.1 = some old →
      table.get? old = i.dependencies.get? old) :
    ∃ rest : DependencyTable, ms.foldl i.takeOut (acc, table) =
        (acc ++ ms.map fun m => ⟨m.1, m.2, i.list? m.1⟩, rest) ∧
      ∀ l, rest.get? l =
        if ∃ m ∈ ms, i.owners.get? m.1 = some l then none else table.get? l := by
  induction ms generalizing acc table with
  | nil => exact ⟨table, by simp⟩
  | cons m ms ih =>
    obtain ⟨first, distinct⟩ := List.pairwise_cons.1 distinct
    have taken : (i.owners.get? m.1).bind table.get? = i.list? m.1 := by
      cases ho : i.owners.get? m.1 with
      | none => rw [list?_of_no_owner ho, Option.bind_none]
      | some old => rw [list?_of_owner ho, Option.bind_some, intact m (by simp) old ho]
    obtain ⟨rest, fold, lookup⟩ := ih distinct (acc ++ [⟨m.1, m.2, i.list? m.1⟩])
      (i.withoutList table m.1) (fun n hn old ho => by
        rw [get?_withoutList, if_neg fun hm => first n hn (h.injective hm ho),
          intact n (List.mem_cons_of_mem _ hn) old ho])
    refine ⟨rest, ?_, fun l => ?_⟩
    · rw [List.foldl_cons, takeOut_eq, taken, fold]
      simp
    · rw [lookup, get?_withoutList]
      simp only [List.mem_cons, exists_eq_or_imp]
      by_cases hm : i.owners.get? m.1 = some l
      · simp [hm]
      · simp only [hm, false_or, if_false]

theorem get?_owners_putIn (i : ManifestIndex) (m : Move) (p : FilePath) :
    (i.putIn m).owners.get? p = if m.file.Same p then some m.owner else i.owners.get? p :=
  i.owners.get?_insert m.file p m.owner

theorem get?_dependencies_putIn (i : ManifestIndex) (m : Move) (l : Label) :
    (i.putIn m).dependencies.get? l =
      if m.owner = l then m.dependencies else i.dependencies.get? l := by
  unfold putIn
  dsimp only
  split
  · rename_i deps hd
    rw [SortedMap.get?_insert_eq, hd]
  · rename_i hd
    simp only [SortedMap.get?_erase_eq, hd, eq_comm]

/-- Putting in files that are each named once gives every one its new owner. -/
theorem owners_foldl_putIn (i : ManifestIndex) {ms : List Move}
    (once : ms.Pairwise fun m n => ¬ m.file.Same n.file) (p : FilePath) :
    (∀ m ∈ ms, m.file.Same p → (ms.foldl putIn i).owners.get? p = some m.owner) ∧
    ((∀ m ∈ ms, ¬ m.file.Same p) → (ms.foldl putIn i).owners.get? p = i.owners.get? p) := by
  have updates : Fold.Local putIn (fun _ => True) (fun i p => i.owners.get? p)
      (fun m p => m.file.Same p) ms :=
    { keeps := fun _ _ _ _ => trivial
      frame := fun s _ m _ k hm => by rw [get?_owners_putIn, if_neg hm] }
  constructor
  · intro m hm hp
    obtain ⟨s, -, -, result⟩ := updates.foldl_touch (s := i) trivial
      (once.imp fun hne h => hne (h.1.trans h.2.symm)) hm hp
    rw [result, get?_owners_putIn, if_pos hp]
  · exact updates.foldl_frame trivial

/-- Putting in targets that are each named once gives every one the list of its new file. -/
theorem dependencies_foldl_putIn (i : ManifestIndex) {ms : List Move}
    (once : ms.Pairwise fun m n => m.owner ≠ n.owner) (l : Label) :
    (∀ m ∈ ms, m.owner = l → (ms.foldl putIn i).dependencies.get? l = m.dependencies) ∧
    ((∀ m ∈ ms, m.owner ≠ l) →
      (ms.foldl putIn i).dependencies.get? l = i.dependencies.get? l) := by
  have updates : Fold.Local putIn (fun _ => True) (fun i l => i.dependencies.get? l)
      (fun m l => m.owner = l) ms :=
    { keeps := fun _ _ _ _ => trivial
      frame := fun s _ m _ k hm => by rw [get?_dependencies_putIn, if_neg hm] }
  constructor
  · intro m hm hl
    obtain ⟨s, -, -, result⟩ := updates.foldl_touch (s := i) trivial
      (once.imp fun hne h => hne (h.1.trans h.2.symm)) hm hl
    rw [result, get?_dependencies_putIn, if_pos hl]
  · exact updates.foldl_frame trivial

theorem snapshot_foldl_putIn (i : ManifestIndex) (ms : List Move) :
    (ms.foldl putIn i).snapshot = i.snapshot :=
  Fold.foldl_inv (fun s : ManifestIndex => s.snapshot = i.snapshot) rfl fun _ hs _ _ => hs

/-- An assignment of files to targets in which no target has two files. -/
def Assigns (owners : SortedMap FilePath Label) : Prop :=
  ∀ {p q l}, owners.get? p = some l → owners.get? q = some l → p.Same q

/-- After a relabelling every file has its new owner and the list that it had. -/
structure Relabelled (i j : ManifestIndex) (owners : SortedMap FilePath Label) : Prop where
  linked : j.Linked
  snapshot : j.snapshot = i.snapshot
  owner : ∀ p, j.owners.get? p = (i.owners.get? p).bind fun _ => owners.get? p
  list : ∀ p, j.list? p = i.list? p

theorem of_mem_moves (h : (q, l) ∈ i.moves owners) :
    owners.get? q = some l ∧ i.owners.get? q ≠ some l := by
  obtain ⟨hq, old, ho, hne⟩ := mem_moves_iff.1 h
  refine ⟨SortedMap.get?_of_mem hq, fun hl => hne ?_⟩
  exact Option.some.inj (ho.symm.trans hl)

theorem exists_mem_moves {old : Label} (ho : i.owners.get? p = some old)
    (hl : owners.get? p = some l) (hne : old ≠ l) : ∃ q, q.Same p ∧ (q, l) ∈ i.moves owners := by
  obtain ⟨q, hq, hqp⟩ := SortedMap.get?_eq_some_iff.1 hl
  refine ⟨q, hqp, mem_moves_iff.2 ⟨hq, old, ?_, hne⟩⟩
  rw [i.owners.get?_congr hqp, ho]

/-- The moves with the lists that the files had. -/
def carried (i : ManifestIndex) (owners : SortedMap FilePath Label) : List Move :=
  (i.moves owners).map fun m => ⟨m.1, m.2, i.list? m.1⟩

theorem mem_carried_iff {m : Move} : m ∈ i.carried owners ↔
    (m.file, m.owner) ∈ i.moves owners ∧ m.dependencies = i.list? m.file := by
  rw [carried, List.mem_map]
  constructor
  · rintro ⟨n, hn, rfl⟩
    exact ⟨hn, rfl⟩
  · rintro ⟨hm, hd⟩
    refine ⟨(m.file, m.owner), hm, ?_⟩
    rw [← hd]

theorem carried_pairwise_file (i : ManifestIndex) (owners : SortedMap FilePath Label) :
    (i.carried owners).Pairwise fun m n => ¬ m.file.Same n.file :=
  List.pairwise_map.2 (i.moves_pairwise owners)

theorem carried_pairwise_owner (assigns : Assigns owners) :
    (i.carried owners).Pairwise fun m n => m.owner ≠ n.owner := by
  refine (i.carried_pairwise_file owners).imp_of_mem fun {m n} hm hn hne heq => hne ?_
  have hm := (of_mem_moves (mem_carried_iff.1 hm).1).1
  have hn := (of_mem_moves (mem_carried_iff.1 hn).1).1
  exact assigns hm (heq ▸ hn)

/-- A relabelling takes out what the files to move had and puts it in again. -/
theorem Linked.relabel_eq (h : i.Linked) (owners : SortedMap FilePath Label) :
    ∃ rest : DependencyTable,
      i.relabel owners = (i.carried owners).foldl putIn { i with dependencies := rest } ∧
      ∀ l, rest.get? l = if ∃ m ∈ i.moves owners, i.owners.get? m.1 = some l then none
        else i.dependencies.get? l := by
  obtain ⟨rest, fold, lookup⟩ := h.foldl_takeOut (i.moves_pairwise owners) [] i.dependencies
    (fun _ _ _ _ => rfl)
  refine ⟨rest, ?_, lookup⟩
  simp only [relabel, fold, List.nil_append, carried]

variable (h : i.Linked) (assigns : Assigns owners)
  (owned : ∀ p, (i.owners.get? p).isSome = true → (owners.get? p).isSome = true)

include h owned in
theorem Linked.get?_owners_relabel (p : FilePath) :
    (i.relabel owners).owners.get? p = (i.owners.get? p).bind fun _ => owners.get? p := by
  obtain ⟨rest, eq, -⟩ := h.relabel_eq owners
  obtain ⟨moved, stays⟩ := owners_foldl_putIn { i with dependencies := rest }
    (i.carried_pairwise_file owners) p
  rw [eq]
  cases ho : i.owners.get? p with
  | none =>
    rw [stays, Option.bind_none]
    · exact ho
    · intro m hm hp
      obtain ⟨-, old, hold, -⟩ := mem_moves_iff.1 (mem_carried_iff.1 hm).1
      rw [i.owners.get?_congr hp, ho] at hold
      cases hold
  | some old =>
    obtain ⟨l, hl⟩ := Option.isSome_iff_exists.1 (owned p (by simp [ho]))
    rw [Option.bind_some, hl]
    by_cases hol : old = l
    · rw [stays]
      · exact ho.trans (congrArg some hol)
      · intro m hm hp
        obtain ⟨new, changed⟩ := of_mem_moves (mem_carried_iff.1 hm).1
        rw [owners.get?_congr hp, hl] at new
        rw [i.owners.get?_congr hp, ho, hol] at changed
        exact changed new
    · obtain ⟨q, hqp, hq⟩ := exists_mem_moves ho hl hol
      exact moved ⟨q, l, i.list? q⟩ (mem_carried_iff.2 ⟨hq, rfl⟩) hqp

include h assigns in
/-- The new owner of a file has the list that the old one had. -/
theorem Linked.get?_dependencies_relabel {old : Label} (ho : i.owners.get? p = some old)
    (hl : owners.get? p = some l) :
    (i.relabel owners).dependencies.get? l = i.dependencies.get? old := by
  obtain ⟨rest, eq, lookup⟩ := h.relabel_eq owners
  obtain ⟨moved, stays⟩ := dependencies_foldl_putIn { i with dependencies := rest }
    (carried_pairwise_owner (i := i) assigns) l
  rw [eq]
  by_cases hol : old = l
  · -- No file comes to the target, and its own file does not leave it.
    subst hol
    rw [stays]
    · refine (lookup old).trans (if_neg ?_)
      rintro ⟨⟨q, m⟩, hq, hold⟩
      obtain ⟨new, changed⟩ := of_mem_moves hq
      rw [owners.get?_congr (h.injective hold ho), hl] at new
      exact changed (hold.trans new)
    · rintro m hm rfl
      obtain ⟨new, changed⟩ := of_mem_moves (mem_carried_iff.1 hm).1
      exact changed (i.owners.get?_congr (assigns new hl) ▸ ho)
  · obtain ⟨q, hqp, hq⟩ := exists_mem_moves ho hl hol
    rw [moved ⟨q, l, i.list? q⟩ (mem_carried_iff.2 ⟨hq, rfl⟩) rfl, i.list?_congr hqp,
      list?_of_owner ho]

include h assigns owned in
theorem Linked.exists_of_get?_dependencies_relabel
    (hl : ((i.relabel owners).dependencies.get? l).isSome = true) :
    ∃ p, (i.owners.get? p).isSome = true ∧ owners.get? p = some l := by
  obtain ⟨rest, eq, lookup⟩ := h.relabel_eq owners
  obtain ⟨-, stays⟩ := dependencies_foldl_putIn { i with dependencies := rest }
    (carried_pairwise_owner (i := i) assigns) l
  rw [eq] at hl
  by_cases hm : ∃ m ∈ i.carried owners, m.owner = l
  · obtain ⟨m, hm, rfl⟩ := hm
    obtain ⟨hq, old, ho, -⟩ := mem_moves_iff.1 (mem_carried_iff.1 hm).1
    exact ⟨m.file, by simp [ho], SortedMap.get?_of_mem hq⟩
  · -- The list is from before, so the file that it belongs to has not moved.
    rw [stays fun m hm' heq => hm ⟨m, hm', heq⟩] at hl
    dsimp only at hl
    rw [lookup] at hl
    split at hl
    · simp at hl
    · rename_i unmoved
      obtain ⟨p, ho⟩ := (h.labels l).1 hl
      have ho' : (i.owners.get? p).isSome = true := by simp [ho]
      refine ⟨p, ho', ?_⟩
      obtain ⟨new, hn⟩ := Option.isSome_iff_exists.1 (owned p ho')
      by_contra hne
      obtain ⟨q, hqp, hq⟩ := exists_mem_moves ho hn fun heq => hne (heq ▸ hn)
      exact unmoved ⟨(q, new), hq, (i.owners.get?_congr hqp).trans ho⟩

include h assigns owned in
theorem Linked.relabel : Relabelled i (i.relabel owners) owners where
  snapshot := by
    obtain ⟨rest, eq, -⟩ := h.relabel_eq owners
    rw [eq, snapshot_foldl_putIn]
  owner := h.get?_owners_relabel owned
  list p := by
    cases ho : i.owners.get? p with
    | none =>
      have hj : (i.relabel owners).owners.get? p = none := by
        rw [h.get?_owners_relabel owned, ho, Option.bind_none]
      rw [list?_of_no_owner ho, list?_of_no_owner hj]
    | some old =>
      obtain ⟨l, hl⟩ := Option.isSome_iff_exists.1 (owned p (by simp [ho]))
      have hj : (i.relabel owners).owners.get? p = some l := by
        rw [h.get?_owners_relabel owned, ho, Option.bind_some, hl]
      rw [list?_of_owner ho, list?_of_owner hj, h.get?_dependencies_relabel assigns ho hl]
  linked :=
    { injective := by
        intro p q l hp hq
        rw [h.get?_owners_relabel owned, Option.bind_eq_some_iff] at hp hq
        obtain ⟨-, -, hp⟩ := hp
        obtain ⟨-, -, hq⟩ := hq
        exact assigns hp hq
      labels := by
        intro l
        constructor
        · intro hl
          obtain ⟨p, ho, hl⟩ := h.exists_of_get?_dependencies_relabel assigns owned hl
          refine ⟨p, ?_⟩
          obtain ⟨old, ho⟩ := Option.isSome_iff_exists.1 ho
          rw [h.get?_owners_relabel owned, ho, Option.bind_some, hl]
        · rintro ⟨p, hp⟩
          rw [h.get?_owners_relabel owned, Option.bind_eq_some_iff] at hp
          obtain ⟨old, ho, hl⟩ := hp
          rw [h.get?_dependencies_relabel assigns ho hl, h.labels]
          exact ⟨p, ho⟩ }

end Relabel

/-! ## Recording what was parsed -/

theorem get?_owners_record (i : ManifestIndex) (file : FilePath) (l : Label) (deps : List String)
    (p : FilePath) :
    (i.record file l deps).owners.get? p = if file.Same p then some l else i.owners.get? p :=
  i.owners.get?_insert file p l

theorem get?_dependencies_record (i : ManifestIndex) (file : FilePath) (l m : Label)
    (deps : List String) : (i.record file l deps).dependencies.get? m =
      if l = m then some deps
      else if i.owners.get? file = some m then none else i.dependencies.get? m := by
  unfold record
  dsimp only
  rw [SortedMap.get?_insert_eq]
  split
  · rfl
  · rename_i hlm
    cases ho : i.owners.get? file with
    | none => simp
    | some old =>
      simp only [Option.some.injEq]
      by_cases hol : old = l
      · rw [if_pos hol, if_neg fun heq => hlm (hol.symm.trans heq)]
      · rw [if_neg hol, SortedMap.get?_erase_eq]
        simp only [eq_comm]

section Record

-- The target has no file but the one that is recorded.
variable (h : i.Linked) (free : ∀ q, i.owners.get? q = some l → q.Same file)

include h free in
theorem Linked.list?_record (deps : List String) (p : FilePath) :
    (i.record file l deps).list? p = if file.Same p then some deps else i.list? p := by
  rw [list?, get?_owners_record]
  split
  · rw [Option.bind_some, get?_dependencies_record, if_pos rfl]
  · rename_i hp
    cases ho : i.owners.get? p with
    | none => rw [list?_of_no_owner ho, Option.bind_none]
    | some m =>
      rw [Option.bind_some, get?_dependencies_record, list?_of_owner ho, if_neg, if_neg]
      · intro hf
        exact hp (h.injective hf ho)
      · rintro rfl
        exact hp (free p ho).symm

include h free in
theorem Linked.record (deps : List String) : (i.record file l deps).Linked where
  injective {p q m} hp hq := by
    rw [get?_owners_record] at hp hq
    split at hp
    · rename_i hfp
      split at hq
      · rename_i hfq
        exact hfp.symm.trans hfq
      · cases hp
        exact ((free q hq).trans hfp).symm
    · split at hq
      · rename_i hfq
        cases hq
        exact (free p hp).trans hfq
      · exact h.injective hp hq
  labels m := by
    rw [get?_dependencies_record]
    by_cases hlm : l = m
    · rw [if_pos hlm]
      refine ⟨fun _ => ⟨file, ?_⟩, fun _ => rfl⟩
      rw [get?_owners_record, if_pos (FilePath.Same.refl file), hlm]
    · rw [if_neg hlm]
      -- A file with another owner than the recorded one is not the recorded file.
      have other : ∀ p, (i.record file l deps).owners.get? p = some m ↔
          ¬ file.Same p ∧ i.owners.get? p = some m := by
        intro p
        rw [get?_owners_record]
        by_cases hp : file.Same p <;> simp [hp, hlm]
      simp only [other]
      by_cases hf : i.owners.get? file = some m
      · rw [if_pos hf]
        refine ⟨fun hn => by simp at hn, ?_⟩
        rintro ⟨p, hp, ho⟩
        exact absurd (h.injective hf ho) hp
      · rw [if_neg hf, h.labels]
        refine exists_congr fun p => ⟨fun ho => ⟨fun hp => hf ?_, ho⟩, And.right⟩
        rw [i.owners.get?_congr hp, ho]

end Record

end WorkspaceSync.ManifestIndex
