import WorkspaceSync.Proofs.SortedMap
import WorkspaceSync.Proofs.SourceRoots.Package

/-!
# Merging nested source roots

The root that counts for a directory is the innermost one above it. Merging drops a root where the
innermost kept one already implies its prefix, so the package that counts for a directory stays the
same: what is dropped gave every directory below it the package that it has without it.
-/

namespace WorkspaceSync

universe u v

/-! ## The innermost directory -/

/-- Of the entries at or above a directory the one that is below all others. -/
structure Innermost {β : Type u} (l : List (WorkspacePath × β)) (d : WorkspacePath)
    (e : WorkspacePath × β) : Prop where
  mem : e ∈ l
  above : e.1.isAncestorOf d = true
  below : ∀ f ∈ l, f.1.isAncestorOf d = true → f.1.isAncestorOf e.1 = true

namespace Innermost

variable {β : Type u} {γ : Type v} {l l' : List (WorkspacePath × β)} {d : WorkspacePath}
  {e f : WorkspacePath × β}

theorem fst_eq (he : Innermost l d e) (hf : Innermost l d f) : e.1 = f.1 :=
  WorkspacePath.isAncestorOf_antisymm (hf.below e he.mem he.above) (he.below f hf.mem hf.above)

theorem map (h : Innermost l d e) (g : β → γ) :
    Innermost (l.map fun e => (e.1, g e.2)) d (e.1, g e.2) where
  mem := List.mem_map_of_mem h.mem
  above := h.above
  below f hf above := by
    obtain ⟨f, mem, rfl⟩ := List.mem_map.1 hf
    exact h.below f mem above

theorem of_map {g : β → γ} {e : WorkspacePath × γ}
    (h : Innermost (l.map fun e => (e.1, g e.2)) d e) :
    ∃ f, Innermost l d f ∧ e = (f.1, g f.2) := by
  obtain ⟨f, mem, rfl⟩ := List.mem_map.1 h.mem
  refine ⟨f, ⟨mem, h.above, ?_⟩, rfl⟩
  intro f' mem' above
  exact h.below _ (List.mem_map_of_mem mem') above

theorem exists_of_mem (mem : f ∈ l) (above : f.1.isAncestorOf d = true) :
    ∃ e, Innermost l d e := by
  induction l generalizing f with
  | nil => cases mem
  | cons g l ih =>
    by_cases none : ∀ h ∈ l, ¬ h.1.isAncestorOf d = true
    · have first : f = g := (List.mem_cons.1 mem).resolve_right fun mem => none f mem above
      subst first
      refine ⟨f, List.mem_cons_self, above, ?_⟩
      intro h mem above'
      rcases List.mem_cons.1 mem with rfl | later
      · exact WorkspacePath.isAncestorOf_refl _
      · exact absurd above' (none h later)
    · simp only [not_forall, not_not] at none
      obtain ⟨h, later, above'⟩ := none
      obtain ⟨e, inner⟩ := ih later above'
      by_cases further : g.1.isAncestorOf d = true ∧ ¬ g.1.isAncestorOf e.1 = true
      · obtain ⟨aboveG, notAbove⟩ := further
        have between := (WorkspacePath.isAncestorOf_or aboveG inner.above).resolve_left notAbove
        refine ⟨g, List.mem_cons_self, aboveG, ?_⟩
        intro h mem above'
        rcases List.mem_cons.1 mem with rfl | later
        · exact WorkspacePath.isAncestorOf_refl _
        · exact WorkspacePath.isAncestorOf_trans (inner.below h later above') between
      · refine ⟨e, List.mem_cons_of_mem g inner.mem, inner.above, ?_⟩
        intro h mem above'
        rcases List.mem_cons.1 mem with rfl | later
        · by_contra notAbove
          exact further ⟨above', notAbove⟩
        · exact inner.below h later above'

/-- An entry that comes after all others is the innermost one of every directory that it is above,
and none of any other. -/
theorem of_last (members : ∀ g, g ∈ l' ↔ g = e ∨ g ∈ l)
    (last : ∀ g ∈ l, compare g.1 e.1 = .lt) :
    Innermost l' d f ↔ if e.1.isAncestorOf d then f = e else Innermost l d f := by
  have mem : e ∈ l' := (members e).2 (.inl rfl)
  split_ifs with above
  · constructor
    · intro inner
      rcases (members f).1 inner.mem with same | earlier
      · exact same
      · have notAbove := WorkspacePath.not_isAncestorOf_of_compare (last f earlier)
        exact absurd (inner.below e mem above) notAbove
    · rintro rfl
      refine ⟨mem, above, ?_⟩
      intro g hg above'
      rcases (members g).1 hg with rfl | earlier
      · exact WorkspacePath.isAncestorOf_refl _
      · exact WorkspacePath.isAncestorOf_of_compare (last g earlier) above' above
  · constructor
    · intro inner
      have earlier : f ∈ l := by
        rcases (members f).1 inner.mem with rfl | earlier
        · exact absurd inner.above above
        · exact earlier
      exact ⟨earlier, inner.above, fun g hg => inner.below g ((members g).2 (.inr hg))⟩
    · intro inner
      refine ⟨(members f).2 (.inr inner.mem), inner.above, ?_⟩
      intro g hg above'
      rcases (members g).1 hg with rfl | earlier
      · exact absurd above' above
      · exact inner.below g earlier above'

end Innermost

namespace SourceRoots

variable {roots kept : SourceRoots} {l : List (WorkspacePath × String)} {d k : WorkspacePath}
  {x : String} {t : Bool}

theorem covering?_eq_none_iff :
    covering? roots d = none ↔ ∀ e ∈ roots.entries, ¬ e.1.isAncestorOf d = true := by
  rw [covering?, List.getLast?_eq_none_iff, List.filter_eq_nil_iff]

/-- The last root above a directory in the order of texts is the innermost one. -/
theorem innermost_of_covering? {e : WorkspacePath × SourceRoot} (h : covering? roots d = some e) :
    Innermost roots.entries d e := by
  obtain ⟨before, whole⟩ := List.getLast?_eq_some_iff.1 h
  have isAbove {f} : f ∈ roots.entries ∧ f.1.isAncestorOf d = true ↔ f ∈ before ++ [e] := by
    rw [← whole, List.mem_filter]
  have sorted := roots.sorted.filter fun e => e.1.isAncestorOf d
  rw [whole] at sorted
  obtain ⟨mem, above⟩ := isAbove.2 (List.mem_append_right _ List.mem_cons_self)
  refine ⟨mem, above, ?_⟩
  intro f mem' above'
  rcases List.mem_append.1 (isAbove.1 ⟨mem', above'⟩) with first | same
  · have earlier := (List.pairwise_append.1 sorted).2.2 f first e List.mem_cons_self
    exact WorkspacePath.isAncestorOf_of_compare earlier above' above
  · rw [List.mem_singleton.1 same]
    exact WorkspacePath.isAncestorOf_refl _

theorem covering?_eq_some_iff {e : WorkspacePath × SourceRoot} :
    covering? roots d = some e ↔ Innermost roots.entries d e := by
  constructor
  · exact innermost_of_covering?
  · intro inner
    cases found : covering? roots d with
    | none => exact absurd inner.above (covering?_eq_none_iff.1 found e inner.mem)
    | some f =>
      have inner' := innermost_of_covering? found
      have same := inner'.fst_eq inner
      rw [SortedMap.eq_of_mem inner'.mem inner.mem (same ▸ Std.ReflCmp.compare_self)]

/-! ## Directories and their prefixes -/

/-- The prefixes of the roots by directory. -/
def layout (roots : SourceRoots) : SortedMap WorkspacePath String :=
  roots.map fun _ r => r.packagePrefix

theorem get?_layout (roots : SourceRoots) (k : WorkspacePath) :
    (layout roots).get? k = (roots.get? k).map (·.packagePrefix) := by
  simp [layout, SortedMap.get?, SortedMap.entryAt?_map, Function.comp_def]

@[simp] theorem keys_layout (roots : SourceRoots) : (layout roots).keys = roots.keys :=
  SortedMap.keys_map _ roots

@[simp] theorem layout_insert (roots : SourceRoots) (d : WorkspacePath) (r : SourceRoot) :
    layout (roots.insert d r) = (layout roots).insert d r.packagePrefix := by
  apply SortedMap.eq_of_get?_eq
  intro k
  simp only [get?_layout, SortedMap.get?_insert_eq]
  split_ifs <;> rfl

/-- Adding brings in a directory that is new, and leaves the prefix of one that is there. -/
theorem layout_add (roots : SourceRoots) (d : WorkspacePath) (x : String) (t : Bool) :
    layout (add roots d x t) = (layout roots).insertIfNew d x := by
  rw [add, SortedMap.alter, layout_insert, SortedMap.insertIfNew, SortedMap.contains_eq_isSome,
    get?_layout]
  cases found : roots.get? d with
  | none => rfl
  | some r =>
    rw [if_pos (by rfl)]
    apply SortedMap.eq_of_get?_eq
    intro k
    rw [SortedMap.get?_insert_eq]
    split_ifs with same
    · simp [← same, get?_layout, found]
    · rfl

theorem layout_add_of_some {r : SourceRoot} (found : roots.get? d = some r) :
    layout (add roots d x t) = layout roots := by
  rw [layout_add, SortedMap.insertIfNew, if_pos]
  rw [SortedMap.contains_eq_isSome, get?_layout, found]
  rfl

/-! ## Merging -/

/-- A root is merged into the innermost one above it where that implies its prefix, and stays
otherwise. -/
theorem keep_cases (kept : SourceRoots) (e : WorkspacePath × SourceRoot) :
    (∃ f, Innermost kept.entries e.1 f ∧
      impliedPackage f.1 f.2.packagePrefix e.1 = e.2.packagePrefix ∧
      keep kept e = add kept f.1 f.2.packagePrefix e.2.isTest) ∨
    ((∀ f, Innermost kept.entries e.1 f →
      impliedPackage f.1 f.2.packagePrefix e.1 ≠ e.2.packagePrefix) ∧
      keep kept e = kept.insert e.1 e.2) := by
  unfold keep
  cases found : covering? kept e.1 with
  | none =>
    refine .inr ⟨?_, rfl⟩
    intro f inner
    rw [covering?_eq_some_iff.2 inner] at found
    cases found
  | some f =>
    by_cases implied : impliedPackage f.1 f.2.packagePrefix e.1 = e.2.packagePrefix
    · exact .inl ⟨f, covering?_eq_some_iff.1 found, implied, if_pos implied⟩
    · refine .inr ⟨?_, if_neg implied⟩
      intro g inner
      rw [covering?_eq_some_iff.2 inner] at found
      rwa [Option.some.inj found]

/-- Kept roots for some directories with prefixes: each is one of them, and every directory that
one of them is above has the package that its innermost one gives it. -/
structure Merges (l : List (WorkspacePath × String)) (kept : SourceRoots) : Prop where
  subset : ∀ e ∈ (layout kept).entries, e ∈ l
  implies : ∀ d e, Innermost l d e → ∃ f, Innermost (layout kept).entries d f ∧
    impliedPackage f.1 f.2 d = impliedPackage e.1 e.2 d

theorem merges_nil : Merges [] SortedMap.empty where
  subset := nofun
  implies _ _ inner := nomatch inner.mem

/-- A directory that is above nothing kept is skipped by the innermost ones of what is below it. -/
private theorem innermost_of_below {f : WorkspacePath × String}
    (last : ∀ g ∈ l, compare g.1 k = .lt) (inner : Innermost l k f)
    (above : k.isAncestorOf d = true) : Innermost l d f where
  mem := inner.mem
  above := WorkspacePath.isAncestorOf_trans inner.above above
  below g mem above' := by
    apply inner.below g mem
    exact WorkspacePath.isAncestorOf_of_compare (last g mem) above' above

/-- What comes after all roots comes after their directories with anything else. -/
theorem compare_lt_map {β : Type u} {γ : Type v} {l : List (WorkspacePath × β)}
    (last : ∀ f ∈ l, compare f.1 k = .lt) (g : β → γ) :
    ∀ f ∈ l.map fun e => (e.1, g e.2), compare f.1 k = .lt := by
  intro f mem
  obtain ⟨f, earlier, rfl⟩ := List.mem_map.1 mem
  exact last f earlier

theorem mem_append_self {β : Type u} (l : List β) (e : β) :
    ∀ g, g ∈ l ++ [e] ↔ g = e ∨ g ∈ l := by
  intro g
  rw [List.mem_append, List.mem_singleton, or_comm]

section Step

variable {e : WorkspacePath × SourceRoot} (h : Merges l kept)
  (last : ∀ f ∈ l, compare f.1 e.1 = .lt)

include h last

private theorem Merges.insert :
    Merges (l ++ [(e.1, e.2.packagePrefix)]) (kept.insert e.1 e.2) := by
  have new : (layout kept).get? e.1 = none := by
    rw [Option.eq_none_iff_forall_ne_some]
    intro x found
    have := last _ (h.subset _ (SortedMap.mem_entries_iff.2 found))
    simp at this
  have members : ∀ g, g ∈ (layout (kept.insert e.1 e.2)).entries ↔
      g = (e.1, e.2.packagePrefix) ∨ g ∈ (layout kept).entries := by
    intro g
    rw [layout_insert, SortedMap.mem_entries_insert new]
  constructor
  · intro g mem
    rcases (members g).1 mem with same | old
    · exact (mem_append_self _ _ g).2 (.inl same)
    · exact List.mem_append_left _ (h.subset g old)
  · intro d f inner
    rw [Innermost.of_last (e := (e.1, e.2.packagePrefix)) (mem_append_self _ _) last] at inner
    have keeps {g} : Innermost (layout (kept.insert e.1 e.2)).entries d g ↔ _ :=
      Innermost.of_last members fun g mem => last g (h.subset g mem)
    split_ifs at inner keeps with above
    · exact ⟨f, keeps.2 inner, rfl⟩
    · obtain ⟨g, inner', same⟩ := h.implies d f inner
      exact ⟨g, keeps.2 inner', same⟩

private theorem Merges.merge {f : WorkspacePath × SourceRoot} (inner : Innermost kept.entries e.1 f)
    (implied : impliedPackage f.1 f.2.packagePrefix e.1 = e.2.packagePrefix) :
    Merges (l ++ [(e.1, e.2.packagePrefix)]) (add kept f.1 f.2.packagePrefix e.2.isTest) := by
  have same : layout (add kept f.1 f.2.packagePrefix e.2.isTest) = layout kept :=
    layout_add_of_some (SortedMap.mem_entries_iff.1 inner.mem)
  constructor
  · intro g mem
    exact List.mem_append_left _ (h.subset g (same ▸ mem))
  · intro d g inner'
    rw [Innermost.of_last (e := (e.1, e.2.packagePrefix)) (mem_append_self _ _) last] at inner'
    rw [same]
    split_ifs at inner' with above
    · have inner : Innermost (layout kept).entries e.1 (f.1, f.2.packagePrefix) :=
        inner.map SourceRoot.packagePrefix
      have last : ∀ g ∈ (layout kept).entries, compare g.1 e.1 = .lt :=
        fun g mem => last g (h.subset g mem)
      refine ⟨(f.1, f.2.packagePrefix), innermost_of_below last inner above, ?_⟩
      rw [inner', ← implied]
      exact (impliedPackage_trans inner.above above).symm
    · exact h.implies d g inner'

theorem Merges.keep : Merges (l ++ [(e.1, e.2.packagePrefix)]) (keep kept e) := by
  rcases keep_cases kept e with ⟨f, inner, implied, merged⟩ | ⟨-, stays⟩
  · rw [merged]
    exact h.merge last inner implied
  · rw [stays]
    exact h.insert last

end Step

/-- Merging keeps the package of every directory. -/
theorem merges_mergeNested (candidates : SourceRoots) :
    Merges (layout candidates).entries (mergeNested candidates) := by
  apply SortedMap.foldl_entries_inv
    (fun l kept => Merges (l.map fun e => (e.1, e.2.packagePrefix)) kept) candidates merges_nil
  intro l kept e merges last
  rw [List.map_append]
  exact merges.keep (compare_lt_map last SourceRoot.packagePrefix)

end SourceRoots

end WorkspaceSync
