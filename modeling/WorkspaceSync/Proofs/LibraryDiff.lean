import Mathlib.Data.Finset.Basic
import Mathlib.Data.Finset.Dedup
import Mathlib.Data.Finset.SDiff
import Mathlib.Tactic.Tauto
import WorkspaceSync.LibraryDiff
import WorkspaceSync.Proofs.Label
import WorkspaceSync.Proofs.SortedMap

/-!
# Library changes replayed

A project model that follows the changes holds a set of libraries. It removes what is to be removed
and then adds what is to be added, and is strict about both: a removal must find its library, an
addition must find its key free. A difference of two tables takes it from the one to the other.
-/

namespace WorkspaceSync

namespace LibraryTable

/-- Every library is kept under its own key. -/
def Keyed (t : LibraryTable) : Prop := SortedMap.KeyedBy Library.key t

/-- The libraries of a table. -/
def libraries (t : LibraryTable) : Finset Library := t.values.toFinset

variable {t : LibraryTable} {l m : Library}

theorem Keyed.mem_values_iff (h : t.Keyed) : l ∈ t.values ↔ t.get? l.key = some l :=
  SortedMap.KeyedBy.mem_values_iff h

theorem Keyed.mem_libraries_iff (h : t.Keyed) : l ∈ t.libraries ↔ t.get? l.key = some l := by
  rw [libraries, List.mem_toFinset, h.mem_values_iff]

theorem Keyed.mem_values_filter_iff (h : t.Keyed) (p : LibraryKey → Library → Bool) :
    l ∈ (t.filter p).values ↔ t.get? l.key = some l ∧ p l.key l = true := by
  rw [SortedMap.values, List.mem_map]
  constructor
  · rintro ⟨⟨k, l⟩, he, rfl⟩
    obtain ⟨he, hp⟩ := List.mem_filter.1 he
    obtain rfl : l.key = k := h _ he
    exact ⟨SortedMap.get?_of_mem he, hp⟩
  · rintro ⟨hl, hp⟩
    obtain ⟨k, he, -⟩ := SortedMap.get?_eq_some_iff.1 hl
    obtain rfl : l.key = k := h _ he
    exact ⟨(l.key, l), List.mem_filter.2 ⟨he, hp⟩, rfl⟩

theorem Keyed.key_of_get? (h : t.Keyed) {k : LibraryKey} (hl : t.get? k = some l) : l.key = k := by
  obtain ⟨a, he, hak⟩ := SortedMap.get?_eq_some_iff.1 hl
  exact (h _ he).trans (Std.LawfulEqOrd.eq_of_compare hak)

/-- A table has no two libraries of one key. -/
theorem Keyed.values_pairwise (h : t.Keyed) : t.values.Pairwise fun a b => a.key ≠ b.key :=
  (SortedMap.KeyedBy.values_sorted h).imp fun hlt heq => by simp [heq] at hlt

end LibraryTable

namespace LibraryDiff

variable {old new : LibraryTable} {l m : Library} {held : Finset Library}

def remove? (held : Finset Library) (l : Library) : Option (Finset Library) :=
  if l ∈ held then some (held.erase l) else none

def add? (held : Finset Library) (l : Library) : Option (Finset Library) :=
  if ∃ m ∈ held, m.key = l.key then none else some (insert l held)

/-- Removes and then adds, if every library to remove is there and every key to add is free. -/
def applyTo? (d : LibraryDiff) (held : Finset Library) : Option (Finset Library) :=
  (d.toRemove.foldlM remove? held).bind fun rest => d.toAdd.foldlM add? rest

/-! ## What differs between two tables -/

theorem mem_toAdd_between (hn : new.Keyed) : l ∈ (between old new).toAdd ↔
    new.get? l.key = some l ∧ old.get? l.key ≠ some l := by
  rw [between, hn.mem_values_filter_iff, decide_eq_true_iff]

theorem mem_toRemove_between (ho : old.Keyed) :
    l ∈ (between old new).toRemove ↔ old.get? l.key = some l ∧ new.get? l.key ≠ some l := by
  rw [between, byKey, List.mem_mergeSort, List.mem_append, List.mem_filterMap,
    ho.mem_values_filter_iff]
  constructor
  · rintro (⟨⟨k, m⟩, he, hl⟩ | ⟨hl, hc⟩)
    · obtain ⟨hl, hne⟩ := Option.filter_eq_some_iff.1 hl
      obtain rfl : l.key = k := ho.key_of_get? hl
      refine ⟨hl, ?_⟩
      rw [SortedMap.get?_of_mem he]
      intro heq
      simp [Option.some.inj heq] at hne
    · refine ⟨hl, ?_⟩
      rw [SortedMap.contains_eq_isSome] at hc
      intro hn
      simp [hn] at hc
  · rintro ⟨hl, hne⟩
    cases hm : new.get? l.key with
    | none => exact .inr ⟨hl, by simp [SortedMap.contains_eq_isSome, hm]⟩
    | some m =>
      obtain ⟨k, he, hk⟩ := SortedMap.get?_eq_some_iff.1 hm
      obtain rfl : k = l.key := Std.LawfulEqOrd.eq_of_compare hk
      refine .inl ⟨(l.key, m), he, Option.filter_eq_some_iff.2 ⟨hl, ?_⟩⟩
      refine decide_eq_true fun heq => hne ?_
      rw [hm, heq]

theorem toAdd_between_pairwise (hn : new.Keyed) (old : LibraryTable) :
    (between old new).toAdd.Pairwise fun a b => a.key ≠ b.key :=
  LibraryTable.Keyed.values_pairwise (SortedMap.KeyedBy.filter hn _)

theorem toRemove_between_nodup (ho : old.Keyed) (new : LibraryTable) :
    (between old new).toRemove.Nodup := by
  rw [between, byKey, (List.mergeSort_perm _ _).nodup_iff]
  refine List.nodup_append.2 ⟨?_, ?_, ?_⟩
  · -- Each comes from the binding of another key.
    refine List.pairwise_filterMap.2 (new.sorted.imp fun hlt a ha b hb => ?_)
    have ha := ho.key_of_get? (Option.filter_eq_some_iff.1 ha).1
    have hb := ho.key_of_get? (Option.filter_eq_some_iff.1 hb).1
    rintro rfl
    rw [ha.symm.trans hb] at hlt
    simp at hlt
  · apply (LibraryTable.Keyed.values_pairwise (SortedMap.KeyedBy.filter ho _)).imp
    rintro a b hne rfl
    exact hne rfl
  · rintro a ha b hb rfl
    obtain ⟨⟨k, m⟩, he, hl⟩ := List.mem_filterMap.1 ha
    obtain rfl : a.key = k := ho.key_of_get? (Option.filter_eq_some_iff.1 hl).1
    have absent := (ho.mem_values_filter_iff _).1 hb
    simp [SortedMap.contains_eq_isSome, SortedMap.get?_of_mem he] at absent

/-- A table does not differ from itself. -/
theorem between_self (t : LibraryTable) : between t t = ⟨[], [], t.values⟩ := by
  have bound : ∀ e ∈ t.entries, t.get? e.1 = some e.2 := fun e he => SortedMap.get?_of_mem he
  have added : (t.filter fun k l => t.get? k ≠ some l).entries = [] := by
    rw [SortedMap.entries_filter, List.filter_eq_nil_iff]
    intro e he
    simp [bound e he]
  have changed : (t.entries.filterMap fun e => (t.get? e.1).filter (· ≠ e.2)) = [] := by
    rw [List.filterMap_eq_nil_iff]
    intro e he
    simp [bound e he, Option.filter]
  have removed : (t.filter fun k _ => !t.contains k).entries = [] := by
    rw [SortedMap.entries_filter, List.filter_eq_nil_iff]
    intro e he
    simp [SortedMap.contains_eq_isSome, bound e he]
  have unchanged : (t.filter fun k l => t.get? k = some l).entries = t.entries := by
    rw [SortedMap.entries_filter, List.filter_eq_self]
    intro e he
    simp [bound e he]
  unfold between
  rw [changed]
  simp only [SortedMap.values, added, removed, unchanged, byKey]
  simp

/-! ## Replaying one difference -/

theorem foldlM_remove? {ls : List Library} (distinct : ls.Nodup) (present : ∀ l ∈ ls, l ∈ held) :
    ls.foldlM remove? held = some (held \ ls.toFinset) := by
  induction ls generalizing held with
  | nil => simp
  | cons l ls ih =>
    obtain ⟨first, distinct⟩ := List.nodup_cons.1 distinct
    have step : remove? held l = some (held.erase l) := if_pos (present l (by simp))
    have left : ∀ m ∈ ls, m ∈ held.erase l := by
      intro m hm
      refine Finset.mem_erase.2 ⟨?_, present m (List.mem_cons_of_mem _ hm)⟩
      rintro rfl
      exact first hm
    rw [List.foldlM_cons, step, Option.bind_eq_bind, Option.bind_some, ih distinct left]
    congr 1
    ext m
    simp only [Finset.mem_sdiff, Finset.mem_erase, List.mem_toFinset, List.mem_cons]
    tauto

theorem foldlM_add? {ls : List Library} (distinct : ls.Pairwise fun a b => a.key ≠ b.key)
    (free : ∀ l ∈ ls, ∀ m ∈ held, m.key ≠ l.key) :
    ls.foldlM add? held = some (held ∪ ls.toFinset) := by
  induction ls generalizing held with
  | nil => simp
  | cons l ls ih =>
    obtain ⟨first, distinct⟩ := List.pairwise_cons.1 distinct
    have step : add? held l = some (insert l held) := by
      apply if_neg
      rintro ⟨m, hm, hk⟩
      exact free l (by simp) m hm hk
    have left : ∀ n ∈ ls, ∀ m ∈ insert l held, m.key ≠ n.key := by
      intro n hn m hm
      rcases Finset.mem_insert.1 hm with rfl | hm
      · exact first n hn
      · exact free n (List.mem_cons_of_mem _ hn) m hm
    rw [List.foldlM_cons, step, Option.bind_eq_bind, Option.bind_some, ih distinct left]
    congr 1
    ext m
    simp only [Finset.mem_union, Finset.mem_insert, List.mem_toFinset, List.mem_cons]
    tauto

/-- Removals that all hit and additions that all meet free keys. -/
theorem applyTo?_eq_some {d : LibraryDiff} (removed : d.toRemove.Nodup)
    (present : ∀ l ∈ d.toRemove, l ∈ held)
    (added : d.toAdd.Pairwise fun a b => a.key ≠ b.key)
    (free : ∀ l ∈ d.toAdd, ∀ m ∈ held, m ∉ d.toRemove → m.key ≠ l.key) :
    d.applyTo? held = some ((held \ d.toRemove.toFinset) ∪ d.toAdd.toFinset) := by
  rw [applyTo?, foldlM_remove? removed present, Option.bind_some, foldlM_add? added]
  intro l hl m hm
  obtain ⟨hm, hr⟩ := Finset.mem_sdiff.1 hm
  exact free l hl m hm fun h => hr (List.mem_toFinset.2 h)

/-- What differs between two tables takes the libraries of the one to those of the other. -/
theorem applyTo?_between (ho : old.Keyed) (hn : new.Keyed) :
    (between old new).applyTo? old.libraries = some new.libraries := by
  rw [applyTo?_eq_some (toRemove_between_nodup ho new) _ (toAdd_between_pairwise hn old)]
  · congr 1
    ext l
    simp only [Finset.mem_union, Finset.mem_sdiff, List.mem_toFinset, ho.mem_libraries_iff,
      hn.mem_libraries_iff, mem_toAdd_between hn, mem_toRemove_between ho]
    tauto
  · intro l hl m hm kept hk
    -- A library that is kept is in both tables, so no other of its key is added.
    rw [ho.mem_libraries_iff] at hm
    rw [mem_toRemove_between ho] at kept
    rw [mem_toAdd_between hn] at hl
    have hm' : new.get? m.key = some m := by
      by_contra hne
      exact kept ⟨hm, hne⟩
    rw [hk, hl.1] at hm'
    obtain rfl := Option.some.inj hm'
    exact hl.2 hm
  · intro l hl
    rw [ho.mem_libraries_iff]
    exact ((mem_toRemove_between ho).1 hl).1

theorem applyTo?_replaceAll (ho : old.Keyed) (hn : new.Keyed) :
    (replaceAll old new).applyTo? old.libraries = some new.libraries := by
  have nodup : old.values.Nodup := by
    apply ho.values_pairwise.imp
    rintro a b hne rfl
    exact hne rfl
  rw [applyTo?_eq_some nodup _ hn.values_pairwise]
  · congr 1
    ext l
    simp [replaceAll, LibraryTable.libraries]
  · intro l hl m hm kept
    exact absurd (List.mem_toFinset.1 hm) kept
  · intro l hl
    exact List.mem_toFinset.2 hl

end LibraryDiff

end WorkspaceSync
