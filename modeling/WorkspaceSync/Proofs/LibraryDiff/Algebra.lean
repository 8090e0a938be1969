import Mathlib.Data.List.Sort
import WorkspaceSync.Proofs.LibraryDiff

/-!
# The algebra of library changes

Two tables whose libraries stand under their own keys are two sets of libraries, and what differs
between them is what set algebra says: `between_eq_set_algebra`. A difference that a strict model
can replay is also a patch: to erase the keys of the libraries to remove and then to insert those to
add makes the new table of the old one. Every list is in the order of keys, so it is known by its
members, and comparing in the other direction exchanges additions and removals.
-/

namespace WorkspaceSync

namespace Library

/-- The order of libraries by their keys. -/
def Precedes (l m : Library) : Prop := compare l.key m.key = .lt

instance : Std.Irrefl Precedes := ⟨fun l h => by simp [Precedes] at h⟩

instance : Std.Antisymm Precedes where
  antisymm l m h h' := by
    have around : compare l.key l.key = .lt := Std.TransCmp.lt_trans h h'
    simp at around

end Library

/-- Libraries of different keys, in the order of their keys. -/
def IncreasingByKey (ls : List Library) : Prop := ls.Pairwise Library.Precedes

namespace LibraryTable

variable {t u : LibraryTable} {l m : Library} {k : LibraryKey} {held : Finset Library}

theorem Keyed.increasing (h : t.Keyed) : IncreasingByKey t.values :=
  SortedMap.KeyedBy.values_sorted h

/-- A table is known by its libraries. -/
theorem Keyed.eq_of_libraries_eq (ht : t.Keyed) (hu : u.Keyed) (same : t.libraries = u.libraries) :
    t = u := by
  apply SortedMap.eq_of_get?_eq
  intro k
  have bound : ∀ l, t.get? k = some l ↔ u.get? k = some l := by
    intro l
    constructor
    · intro hl
      obtain rfl := ht.key_of_get? hl
      rwa [← hu.mem_libraries_iff, ← same, ht.mem_libraries_iff]
    · intro hl
      obtain rfl := hu.key_of_get? hl
      rwa [← ht.mem_libraries_iff, same, hu.mem_libraries_iff]
  exact Option.ext bound

theorem Keyed.erase (h : t.Keyed) (k : LibraryKey) : Keyed (t.erase k) :=
  SortedMap.KeyedBy.filter h _

theorem Keyed.libraries_erase (h : t.Keyed) (held : l ∈ t.libraries) :
    libraries (t.erase l.key) = t.libraries.erase l := by
  ext m
  rw [(h.erase l.key).mem_libraries_iff, SortedMap.get?_erase_eq, Finset.mem_erase]
  rw [h.mem_libraries_iff] at held ⊢
  by_cases same : m.key = l.key
  · -- The only library under the key is the one that is erased.
    rw [if_pos same, same, held]
    constructor
    · intro absent
      cases absent
    · rintro ⟨other, bound⟩
      exact absurd (Option.some.inj bound).symm other
  · rw [if_neg same]
    constructor
    · intro bound
      exact ⟨fun eq => same (congrArg Library.key eq), bound⟩
    · exact And.right

theorem Keyed.insert (h : t.Keyed) (free : t.get? l.key = none) : Keyed (t.insert l.key l) := by
  intro e he
  rcases (SortedMap.mem_entries_insert free).1 he with rfl | he
  · rfl
  · exact h e he

theorem Keyed.libraries_insert (h : t.Keyed) (free : t.get? l.key = none) :
    libraries (t.insert l.key l) = Insert.insert l t.libraries := by
  ext m
  rw [(h.insert free).mem_libraries_iff, SortedMap.get?_insert_eq, Finset.mem_insert,
    h.mem_libraries_iff]
  by_cases same : l.key = m.key
  · rw [if_pos same, ← same, free, Option.some.injEq]
    constructor
    · intro eq
      exact .inl eq.symm
    · rintro (eq | bound)
      · exact eq.symm
      · cases bound
  · rw [if_neg same]
    constructor
    · exact .inr
    · rintro (rfl | bound)
      · exact absurd rfl same
      · exact bound

end LibraryTable

namespace LibraryDiff

variable {old new t : LibraryTable} {d : LibraryDiff} {l m : Library} {held : Finset Library}

/-- Takes the keys of the libraries to remove out, and then puts those to add under their keys. -/
def patch (d : LibraryDiff) (t : LibraryTable) : LibraryTable :=
  d.toAdd.foldl (fun t l => t.insert l.key l) (d.toRemove.foldl (fun t l => t.erase l.key) t)

/-! ## A strict replay is a patch -/

theorem foldl_erase_of_removed {ls : List Library} (h : t.Keyed)
    (removed : ls.foldlM remove? t.libraries = some held) :
    LibraryTable.Keyed (ls.foldl (fun t l => t.erase l.key) t) ∧
      LibraryTable.libraries (ls.foldl (fun t l => t.erase l.key) t) = held := by
  induction ls generalizing t with
  | nil => exact ⟨h, Option.some.inj removed⟩
  | cons l ls ih =>
    rw [List.foldlM_cons, Option.bind_eq_bind, Option.bind_eq_some_iff] at removed
    obtain ⟨rest, first, removed⟩ := removed
    unfold remove? at first
    split at first
    · rename_i present
      obtain rfl := Option.some.inj first
      rw [← h.libraries_erase present] at removed
      exact ih (h.erase l.key) removed
    · cases first

theorem foldl_insert_of_added {ls : List Library} (h : t.Keyed)
    (added : ls.foldlM add? t.libraries = some held) :
    LibraryTable.Keyed (ls.foldl (fun t l => t.insert l.key l) t) ∧
      LibraryTable.libraries (ls.foldl (fun t l => t.insert l.key l) t) = held := by
  induction ls generalizing t with
  | nil => exact ⟨h, Option.some.inj added⟩
  | cons l ls ih =>
    rw [List.foldlM_cons, Option.bind_eq_bind, Option.bind_eq_some_iff] at added
    obtain ⟨more, first, added⟩ := added
    unfold add? at first
    split at first
    · cases first
    · rename_i unused
      have free : t.get? l.key = none := by
        by_contra taken
        obtain ⟨m, hm⟩ := Option.ne_none_iff_exists'.1 taken
        have same := h.key_of_get? hm
        exact unused ⟨m, h.mem_libraries_iff.2 (same ▸ hm), same⟩
      obtain rfl := Option.some.inj first
      rw [← h.libraries_insert free] at added
      exact ih (h.insert free) added

theorem libraries_patch (h : t.Keyed) (replayed : d.applyTo? t.libraries = some held) :
    LibraryTable.Keyed (d.patch t) ∧ LibraryTable.libraries (d.patch t) = held := by
  obtain ⟨rest, removed, added⟩ := Option.bind_eq_some_iff.1 replayed
  obtain ⟨keyed, left⟩ := foldl_erase_of_removed h removed
  rw [← left] at added
  exact foldl_insert_of_added keyed added

/-- What a strict model can replay from one table to another is a patch of the tables. -/
theorem patch_eq_of_applyTo? (ho : old.Keyed) (hn : new.Keyed)
    (replayed : d.applyTo? old.libraries = some new.libraries) : d.patch old = new := by
  obtain ⟨keyed, same⟩ := libraries_patch ho replayed
  exact keyed.eq_of_libraries_eq hn same

/-! ## The lists of a difference -/

theorem mem_unchanged_between (hn : new.Keyed) : l ∈ (between old new).unchanged ↔
    new.get? l.key = some l ∧ old.get? l.key = some l := by
  rw [between, hn.mem_values_filter_iff, decide_eq_true_iff]

theorem toAdd_between_increasing (hn : new.Keyed) (old : LibraryTable) :
    IncreasingByKey (between old new).toAdd :=
  LibraryTable.Keyed.increasing (SortedMap.KeyedBy.filter hn _)

theorem unchanged_between_increasing (hn : new.Keyed) (old : LibraryTable) :
    IncreasingByKey (between old new).unchanged :=
  LibraryTable.Keyed.increasing (SortedMap.KeyedBy.filter hn _)

theorem byKey_pairwise (ls : List Library) :
    (byKey ls).Pairwise fun l m => (compare l.key m.key).isLE = true := by
  apply List.pairwise_mergeSort
  · intro a b c hab hbc
    exact Std.TransCmp.isLE_trans hab hbc
  · intro a b
    rw [Bool.or_eq_true]
    cases order : compare a.key b.key with
    | lt => exact .inl rfl
    | eq => exact .inl rfl
    | gt => exact .inr (by simp [Std.OrientedCmp.gt_iff_lt.1 order])

/-- No two libraries to remove have one key, so sorting them leaves no ties. -/
theorem toRemove_between_increasing (ho : old.Keyed) (new : LibraryTable) :
    IncreasingByKey (between old new).toRemove := by
  have sorted : (between old new).toRemove.Pairwise
      fun l m => (compare l.key m.key).isLE = true := byKey_pairwise _
  refine (sorted.and (toRemove_between_nodup ho new)).imp_of_mem ?_
  rintro l m hl hm ⟨before, other⟩
  rw [mem_toRemove_between ho] at hl hm
  cases order : compare l.key m.key with
  | lt => exact order
  | eq =>
    have same := Std.LawfulEqOrd.eq_of_compare order
    rw [same, hm.1] at hl
    exact absurd (Option.some.inj hl.1).symm other
  | gt => simp [order] at before

/-- Comparing in the other direction exchanges additions and removals. -/
theorem between_swap (ho : old.Keyed) (hn : new.Keyed) :
    between new old =
      ⟨(between old new).toRemove, (between old new).toAdd, (between old new).unchanged⟩ := by
  have added : (between new old).toAdd = (between old new).toRemove := by
    apply (toAdd_between_increasing ho new).eq_of_mem_iff (toRemove_between_increasing ho new)
    intro l
    rw [mem_toAdd_between ho, mem_toRemove_between ho]
  have removed : (between new old).toRemove = (between old new).toAdd := by
    apply (toRemove_between_increasing hn old).eq_of_mem_iff (toAdd_between_increasing hn old)
    intro l
    rw [mem_toAdd_between hn, mem_toRemove_between hn]
  have unchanged : (between new old).unchanged = (between old new).unchanged := by
    apply (unchanged_between_increasing ho new).eq_of_mem_iff (unchanged_between_increasing hn old)
    intro l
    rw [mem_unchanged_between ho, mem_unchanged_between hn, and_comm]
  rw [← added, ← removed, ← unchanged]

/-- Nothing differs between two tables only if they are one table: an empty difference patches
nothing. -/
theorem isEmpty_between_iff (ho : old.Keyed) (hn : new.Keyed) :
    (between old new).isEmpty = true ↔ old = new := by
  rw [isEmpty, Bool.and_eq_true, List.isEmpty_iff, List.isEmpty_iff]
  constructor
  · rintro ⟨added, removed⟩
    have patched := patch_eq_of_applyTo? ho hn (applyTo?_between ho hn)
    rwa [patch, added, removed] at patched
  · rintro rfl
    rw [between_self]
    exact ⟨rfl, rfl⟩

/-! ## Set algebra and patches -/

/-- The difference takes the one table to the other, for a strict model as for one that is not. -/
structure Leads (d : LibraryDiff) (old new : LibraryTable) : Prop where
  replayed : d.applyTo? old.libraries = some new.libraries
  patched : d.patch old = new

theorem leads_between (ho : old.Keyed) (hn : new.Keyed) : (between old new).Leads old new where
  replayed := applyTo?_between ho hn
  patched := patch_eq_of_applyTo? ho hn (applyTo?_between ho hn)

theorem leads_replaceAll (ho : old.Keyed) (hn : new.Keyed) :
    (replaceAll old new).Leads old new where
  replayed := applyTo?_replaceAll ho hn
  patched := patch_eq_of_applyTo? ho hn (applyTo?_replaceAll ho hn)

/-- What differs between two tables is the difference of their sets of libraries in either
direction, and what does not is their intersection. -/
theorem toFinset_between (ho : old.Keyed) (hn : new.Keyed) :
    (between old new).unchanged.toFinset = old.libraries ∩ new.libraries ∧
    (between old new).toAdd.toFinset = new.libraries \ old.libraries ∧
    (between old new).toRemove.toFinset = old.libraries \ new.libraries := by
  refine ⟨?_, ?_, ?_⟩
  · ext l
    rw [List.mem_toFinset, mem_unchanged_between hn, Finset.mem_inter, ho.mem_libraries_iff,
      hn.mem_libraries_iff, and_comm]
  · ext l
    rw [List.mem_toFinset, mem_toAdd_between hn, Finset.mem_sdiff, ho.mem_libraries_iff,
      hn.mem_libraries_iff]
  · ext l
    rw [List.mem_toFinset, mem_toRemove_between ho, Finset.mem_sdiff, ho.mem_libraries_iff,
      hn.mem_libraries_iff]

/-- Comparing two tables is set algebra: the libraries of both, of the new one alone and of the old
one alone, each list in the order of keys. The difference leads from the old table to the new one,
exchanges additions and removals with the tables, and is empty only between equal tables. Replacing
everything leads there too, with every library of both tables and none unchanged. -/
theorem between_eq_set_algebra (ho : old.Keyed) (hn : new.Keyed) :
    ((between old new).unchanged.toFinset = old.libraries ∩ new.libraries ∧
      (between old new).toAdd.toFinset = new.libraries \ old.libraries ∧
      (between old new).toRemove.toFinset = old.libraries \ new.libraries) ∧
    (IncreasingByKey (between old new).unchanged ∧ IncreasingByKey (between old new).toAdd ∧
      IncreasingByKey (between old new).toRemove) ∧
    (between old new).Leads old new ∧
    between new old =
      ⟨(between old new).toRemove, (between old new).toAdd, (between old new).unchanged⟩ ∧
    ((between old new).isEmpty = true ↔ old = new) ∧
    (replaceAll old new).Leads old new ∧
    ((replaceAll old new).toRemove.toFinset = old.libraries ∧
      (replaceAll old new).toAdd.toFinset = new.libraries ∧
      (replaceAll old new).unchanged = []) := by
  refine ⟨toFinset_between ho hn, ⟨?_, ?_, ?_⟩, leads_between ho hn, between_swap ho hn,
    isEmpty_between_iff ho hn, leads_replaceAll ho hn, rfl, rfl, rfl⟩
  · exact unchanged_between_increasing hn old
  · exact toAdd_between_increasing hn old
  · exact toRemove_between_increasing ho new

/-- A source jar as a library, with a jar of its sources or without. -/
def jarAt (path : String) (sources : Option String) : Library :=
  .ofArtifact ⟨.source path, none, sources.map .source⟩

/-- A table of source jars. -/
def jarTable (jars : List (String × Option String)) : LibraryTable :=
  .ofListFirst (jars.map fun (path, sources) => ((jarAt path sources).key, jarAt path sources))

def jarsBefore : LibraryTable := jarTable [("a.jar", none), ("b.jar", none), ("c.jar", none)]

/-- The first jar is gone, the second one has sources now, and there is another one. -/
def jarsAfter : LibraryTable :=
  jarTable [("b.jar", some "b-src.jar"), ("c.jar", none), ("d.jar", none)]

theorem keyed_jarTable (jars : List (String × Option String)) : (jarTable jars).Keyed := by
  intro e he
  obtain ⟨jar, -, rfl⟩ := List.mem_map.1 (SortedMap.mem_ofListFirst he)
  rfl

theorem between_changed_jars :
    (between jarsBefore jarsAfter).toAdd = [jarAt "b.jar" (some "b-src.jar"), jarAt "d.jar" none] ∧
    (between jarsBefore jarsAfter).toRemove = [jarAt "a.jar" none, jarAt "b.jar" none] ∧
    (between jarsBefore jarsAfter).unchanged = [jarAt "c.jar" none] ∧
    (between jarsBefore jarsAfter).patch jarsBefore = jarsAfter := by
  obtain ⟨-, -, leads, swap, -⟩ :=
    between_eq_set_algebra (keyed_jarTable _ : jarsBefore.Keyed) (keyed_jarTable _ : jarsAfter.Keyed)
  refine ⟨by decide +kernel, ?_, by decide +kernel, leads.patched⟩
  have removed : (between jarsAfter jarsBefore).toAdd = (between jarsBefore jarsAfter).toRemove :=
    congrArg toAdd swap
  rw [← removed]
  decide +kernel

end LibraryDiff

end WorkspaceSync
