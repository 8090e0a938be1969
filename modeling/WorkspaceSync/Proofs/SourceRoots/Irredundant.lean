import WorkspaceSync.Proofs.SourceRoots.Flags

/-!
# Roots that say nothing new

A root is redundant where the nearest other root above it already implies its prefix. Merging leaves
none that is (`irredundant_mergeNested`) and changes nothing where there is none
(`mergeNested_eq_self_iff`), so merging twice is merging once. What a dropped root said is kept: the
package of every directory by the roots above it, and its flag by the root that takes its place.
-/

namespace WorkspaceSync.SourceRoots

universe u v

/-! ## The nearest other root -/

/-- Of the entries above an entry, itself apart, the one that is below all others. -/
structure Nearest {β : Type u} (l : List (WorkspacePath × β)) (e f : WorkspacePath × β) :
    Prop where
  mem : f ∈ l
  above : f.1.isAncestorOf e.1 = true
  ne : f.1 ≠ e.1
  below : ∀ g ∈ l, g.1.isAncestorOf e.1 = true → g.1 ≠ e.1 → g.1.isAncestorOf f.1 = true

theorem Nearest.map {β : Type u} {γ : Type v} {l : List (WorkspacePath × β)}
    {e f : WorkspacePath × β} (h : Nearest l e f) (g : β → γ) :
    Nearest (l.map fun e => (e.1, g e.2)) (e.1, g e.2) (f.1, g f.2) where
  mem := List.mem_map_of_mem h.mem
  above := h.above
  ne := h.ne
  below f' mem above ne := by
    obtain ⟨f, mem', rfl⟩ := List.mem_map.1 mem
    exact h.below f mem' above ne

/-- No directory has the prefix that the nearest other one above it implies. -/
def Irredundant (l : List (WorkspacePath × String)) : Prop :=
  ∀ e ∈ l, ∀ f, Nearest l e f → impliedPackage f.1 f.2 e.1 ≠ e.2

section Last

variable {β : Type u} {l l' : List (WorkspacePath × β)} {e f g : WorkspacePath × β}
  (members : ∀ g, g ∈ l' ↔ g = e ∨ g ∈ l) (last : ∀ g ∈ l, compare g.1 e.1 = .lt)

include members last

/-- An entry that comes after all others has the innermost of them nearest to it. -/
theorem nearest_last_iff : Nearest l' e f ↔ Innermost l e.1 f := by
  have other : ∀ g ∈ l, g.1 ≠ e.1 := by
    intro g mem same
    have := last g mem
    simp [same] at this
  constructor
  · intro near
    have earlier : f ∈ l := by
      rcases (members f).1 near.mem with rfl | earlier
      · exact absurd rfl near.ne
      · exact earlier
    refine ⟨earlier, near.above, ?_⟩
    intro g mem above
    exact near.below g ((members g).2 (.inr mem)) above (other g mem)
  · intro inner
    refine ⟨(members f).2 (.inr inner.mem), inner.above, other f inner.mem, ?_⟩
    intro g mem above ne
    rcases (members g).1 mem with rfl | earlier
    · exact absurd rfl ne
    · exact inner.below g earlier above

/-- It is above none of them. -/
theorem nearest_earlier_iff (mem : g ∈ l) : Nearest l' g f ↔ Nearest l g f := by
  have apart : ¬ e.1.isAncestorOf g.1 = true :=
    WorkspacePath.not_isAncestorOf_of_compare (last g mem)
  constructor
  · intro near
    have earlier : f ∈ l := by
      rcases (members f).1 near.mem with rfl | earlier
      · exact absurd near.above apart
      · exact earlier
    exact ⟨earlier, near.above, near.ne, fun h mem => near.below h ((members h).2 (.inr mem))⟩
  · intro near
    refine ⟨(members f).2 (.inr near.mem), near.above, near.ne, ?_⟩
    intro h mem above ne
    rcases (members h).1 mem with rfl | earlier
    · exact absurd above apart
    · exact near.below h earlier above ne

end Last

theorem irredundant_last_iff {l l' : List (WorkspacePath × String)} {e : WorkspacePath × String}
    (members : ∀ g, g ∈ l' ↔ g = e ∨ g ∈ l) (last : ∀ g ∈ l, compare g.1 e.1 = .lt) :
    Irredundant l' ↔
      Irredundant l ∧ ∀ f, Innermost l e.1 f → impliedPackage f.1 f.2 e.1 ≠ e.2 := by
  constructor
  · intro all
    constructor
    · intro g mem f near
      exact all g ((members g).2 (.inr mem)) f ((nearest_earlier_iff members last mem).2 near)
    · intro f inner
      exact all e ((members e).2 (.inl rfl)) f ((nearest_last_iff members last).2 inner)
  · rintro ⟨earlier, new⟩ g mem f near
    rcases (members g).1 mem with rfl | mem
    · exact new f ((nearest_last_iff members last).1 near)
    · exact earlier g mem f ((nearest_earlier_iff members last mem).1 near)

/-! ## Merging -/

variable {kept roots : SourceRoots} {e : WorkspacePath × SourceRoot}

theorem Irredundant.keep (h : Irredundant (layout kept).entries)
    (last : ∀ f ∈ kept.entries, compare f.1 e.1 = .lt) :
    Irredundant (layout (keep kept e)).entries := by
  rcases keep_cases kept e with ⟨f, inner, -, merged⟩ | ⟨unimplied, stays⟩
  · rwa [merged, layout_add_of_some (SortedMap.mem_entries_iff.1 inner.mem)]
  · have last' : ∀ f ∈ (layout kept).entries, compare f.1 e.1 = .lt :=
      compare_lt_map last SourceRoot.packagePrefix
    have members : ∀ g, g ∈ (layout (kept.insert e.1 e.2)).entries ↔
        g = (e.1, e.2.packagePrefix) ∨ g ∈ (layout kept).entries := by
      intro g
      rw [layout_insert, SortedMap.entries_insert_of_lt last', List.mem_append,
        List.mem_singleton, or_comm]
    rw [stays, irredundant_last_iff members last']
    refine ⟨h, ?_⟩
    intro f inner
    obtain ⟨g, innermost, rfl⟩ := inner.of_map
    exact unimplied g innermost

/-- What is kept says something new. -/
theorem irredundant_mergeNested (roots : SourceRoots) :
    Irredundant (layout (mergeNested roots)).entries := by
  -- What is kept so far comes from roots so far, so the next root comes after it.
  suffices h : Flagged roots.entries (mergeNested roots) ∧
      Irredundant (layout (mergeNested roots)).entries from h.2
  apply SortedMap.foldl_entries_inv
    (fun l kept => Flagged l kept ∧ Irredundant (layout kept).entries) roots
  · exact ⟨flagged_nil, nofun⟩
  · rintro l kept e ⟨flagged, irredundant⟩ last
    exact ⟨flagged.keep last, irredundant.keep (flagged.compare_lt last)⟩

/-- Where every root says something new, all are kept. -/
theorem mergeNested_of_irredundant (h : Irredundant (layout roots).entries) :
    mergeNested roots = roots := by
  apply SortedMap.ext_entries
  revert h
  apply SortedMap.foldl_entries_inv
    (fun (l : List (WorkspacePath × SourceRoot)) (kept : SourceRoots) =>
      Irredundant (l.map fun e => (e.1, e.2.packagePrefix)) → kept.entries = l) roots
  · exact fun _ => rfl
  · intro l kept e same last irredundant
    rw [List.map_append] at irredundant
    obtain ⟨earlier, new⟩ := (irredundant_last_iff (e := (e.1, e.2.packagePrefix))
      (mem_append_self _ _) (compare_lt_map last SourceRoot.packagePrefix)).1 irredundant
    -- All roots so far were kept, so the one that would imply the next is the innermost of them.
    obtain rfl := same earlier
    rcases keep_cases kept e with ⟨f, inner, implied, -⟩ | ⟨-, stays⟩
    · exact absurd implied (new _ (inner.map SourceRoot.packagePrefix))
    · rw [stays, SortedMap.entries_insert_of_lt last]

theorem mergeNested_eq_self_iff :
    mergeNested roots = roots ↔ Irredundant (layout roots).entries := by
  constructor
  · intro same
    exact same ▸ irredundant_mergeNested roots
  · exact mergeNested_of_irredundant

/-! ## What dropped roots said -/

variable {candidates : SourceRoots} {d : WorkspacePath} {f : WorkspacePath × SourceRoot}

/-- A kept root is a candidate with its prefix. -/
theorem exists_candidate_of_mem (mem : f ∈ (mergeNested candidates).entries) :
    ∃ e ∈ candidates.entries, e.1 = f.1 ∧ e.2.packagePrefix = f.2.packagePrefix := by
  have listed : (f.1, f.2.packagePrefix) ∈ (layout (mergeNested candidates)).entries :=
    List.mem_map_of_mem mem
  have candidate := (merges_mergeNested candidates).subset _ listed
  obtain ⟨e, mem', same⟩ := List.mem_map.1 candidate
  obtain ⟨directory, packagePrefix⟩ := Prod.mk.injEq .. ▸ same
  exact ⟨e, mem', directory, packagePrefix⟩

/-- The package of a directory below some candidate stays. -/
theorem impliedPackage_mergeNested (covered : Covers candidates d) :
    ∃ e f, Innermost candidates.entries d e ∧ Innermost (mergeNested candidates).entries d f ∧
      impliedPackage f.1 f.2.packagePrefix d = impliedPackage e.1 e.2.packagePrefix d := by
  obtain ⟨e, inner⟩ := covers_iff.1 covered
  obtain ⟨f, inner', same⟩ := (merges_mergeNested candidates).implies d e inner
  obtain ⟨e, candidate, rfl⟩ := inner.of_map
  obtain ⟨f, kept, rfl⟩ := inner'.of_map
  exact ⟨e, f, candidate, kept, same⟩

/-- A kept root is one of tests if all candidates are that it takes the place of. -/
theorem isTest_mergeNested_iff (mem : f ∈ (mergeNested candidates).entries) :
    f.2.isTest = true ↔ ∀ e ∈ candidates.entries,
      Innermost (mergeNested candidates).entries e.1 f → e.2.isTest = true := by
  rw [← onlyTests_iff_of_mem mem, (flagged_mergeNested candidates).onlyTests_iff]
  refine forall₂_congr fun e _ => ?_
  suffices h : innermost? (mergeNested candidates) e.1 = some f.1 ↔
      Innermost (mergeNested candidates).entries e.1 f by rw [h]
  rw [innermost?_eq_some_iff]
  constructor
  · rintro ⟨r, inner⟩
    have same : (f.1, r) = f :=
      SortedMap.eq_of_mem inner.mem mem Std.ReflCmp.compare_self
    exact same ▸ inner
  · intro inner
    exact ⟨f.2, inner⟩

/-- A kept root has another prefix than the nearest kept one above it implies. -/
theorem impliedPackage_ne_of_nearest (mem : e ∈ (mergeNested candidates).entries)
    (near : Nearest (mergeNested candidates).entries e f) :
    impliedPackage f.1 f.2.packagePrefix e.1 ≠ e.2.packagePrefix :=
  irredundant_mergeNested candidates _ (List.mem_map_of_mem mem) _
    (near.map SourceRoot.packagePrefix)

/-- Merging once is enough. -/
theorem mergeNested_mergeNested (candidates : SourceRoots) :
    mergeNested (mergeNested candidates) = mergeNested candidates :=
  mergeNested_of_irredundant (irredundant_mergeNested candidates)

/-- Merging keeps the package of every directory that has one, marks what is kept as tests where all
are that it takes the place of, and leaves nothing to merge. -/
theorem mergeNested_keeps_meaning (candidates : SourceRoots) :
    (∀ d, Covers candidates d → ∃ e f, Innermost candidates.entries d e ∧
      Innermost (mergeNested candidates).entries d f ∧
      impliedPackage f.1 f.2.packagePrefix d = impliedPackage e.1 e.2.packagePrefix d) ∧
    (∀ f ∈ (mergeNested candidates).entries,
      (∃ e ∈ candidates.entries, e.1 = f.1 ∧ e.2.packagePrefix = f.2.packagePrefix) ∧
      (f.2.isTest = true ↔ ∀ e ∈ candidates.entries,
        Innermost (mergeNested candidates).entries e.1 f → e.2.isTest = true)) ∧
    (∀ e ∈ (mergeNested candidates).entries,
      ∀ f, Nearest (mergeNested candidates).entries e f →
        impliedPackage f.1 f.2.packagePrefix e.1 ≠ e.2.packagePrefix) ∧
    mergeNested (mergeNested candidates) = mergeNested candidates := by
  refine ⟨?packages, ?flags, ?irredundant, mergeNested_mergeNested candidates⟩
  case packages => exact fun d covered => impliedPackage_mergeNested covered
  case flags => exact fun f mem => ⟨exists_candidate_of_mem mem, isTest_mergeNested_iff mem⟩
  case irredundant => exact fun e mem f near => impliedPackage_ne_of_nearest mem near

/-- The directory of the innermost of `nestedRoots`. -/
def protoDirectory : WorkspacePath := ⟨["src", "gen", "proto"], by decide⟩

/-- Roots of which every other one says nothing new; only one of them is none of tests. -/
def nestedRoots : SourceRoots := .ofList
  [(⟨["src"], by decide⟩, ⟨"", true⟩), (⟨["src", "util"], by decide⟩, ⟨"util", false⟩),
    (⟨["src", "gen"], by decide⟩, ⟨"org.gen", true⟩), (protoDirectory, ⟨"org.gen.proto", true⟩)]

theorem mergeNested_keeps_meaning_of_nested : Covers nestedRoots protoDirectory ∧
    ∃ f, Innermost (mergeNested nestedRoots).entries protoDirectory f ∧ f.1 ≠ protoDirectory ∧
      impliedPackage f.1 f.2.packagePrefix protoDirectory = "org.gen.proto" := by
  have covered : Covers nestedRoots protoDirectory := ⟨protoDirectory, by decide +kernel⟩
  obtain ⟨packages, -, -, -⟩ := mergeNested_keeps_meaning nestedRoots
  obtain ⟨e, f, candidate, kept, same⟩ := packages protoDirectory covered
  have own : covering? nestedRoots protoDirectory =
      some (protoDirectory, ⟨"org.gen.proto", true⟩) := by
    decide +kernel
  have merged : covering? (mergeNested nestedRoots) protoDirectory =
      some (⟨["src", "gen"], by decide⟩, ⟨"org.gen", true⟩) := by
    decide +kernel
  rw [covering?_eq_some_iff.2 candidate, Option.some.injEq] at own
  rw [covering?_eq_some_iff.2 kept, Option.some.injEq] at merged
  refine ⟨covered, f, kept, ?_, ?_⟩
  · rw [merged]
    decide
  · rw [same, own, impliedPackage_self]

end WorkspaceSync.SourceRoots
