import WorkspaceSync.Proofs.SourceRoots.Openings

/-!
# The test flags of source roots

Every file counts for one root. A file of a known package counts for the root that it proposes, any
other one for the innermost root above its directory; where that root is merged into another one,
the file counts for the other one. A root is marked as one of tests if and only if all files that
count for it are tests. So a file that is no test can lie under such a mark only where a test
proposed a root between the file and the root that the file itself proposed.
-/

namespace WorkspaceSync

open SourceRoots

variable {files : List SourceFile} {f g : SourceFile} {d k : WorkspacePath}

/-- A file proposes a root between another file's directory and the root that that one proposes, or
lies below the other file as if that were a directory. -/
inductive SourceFile.Overtakes (g f : SourceFile) : Prop where
  | between {d h k : WorkspacePath} (directory : f.path.parent? = some d)
      (own : f.proposedRoot? = some h) (other : g.proposedRoot? = some k)
      (below : h.isAncestorOf k = true) (ne : h ≠ k) (above : k.isAncestorOf d = true) :
      Overtakes g f
  | within (below : f.path.isAncestorOf g.path = true) (ne : f.path ≠ g.path) : Overtakes g f

namespace SourceRoots

variable {roots kept : SourceRoots} {e : WorkspacePath × SourceRoot} {x : String} {t : Bool}

/-! ## Roots of tests only -/

/-- A root is marked as one of tests; so is what is no root. -/
def OnlyTests (roots : SourceRoots) (k : WorkspacePath) : Prop :=
  ∀ r, roots.get? k = some r → r.isTest = true

theorem onlyTests_empty : OnlyTests SortedMap.empty k := nofun

theorem onlyTests_iff_of_mem (mem : e ∈ roots.entries) :
    OnlyTests roots e.1 ↔ e.2.isTest = true := by
  have found : roots.get? e.1 = some e.2 := SortedMap.get?_of_mem mem
  simp [OnlyTests, found]

theorem onlyTests_add :
    OnlyTests (add roots d x t) k ↔ OnlyTests roots k ∧ (d = k → t = true) := by
  unfold OnlyTests add
  rw [SortedMap.get?_alter_eq]
  by_cases same : d = k
  · subst same
    cases roots.get? d with
    | none => simp
    | some r => simp
  · simp [same]

theorem onlyTests_addKnown : OnlyTests (addKnown roots f) k ↔
    OnlyTests roots k ∧ (f.proposedRoot? = some k → f.isTest = true) := by
  unfold addKnown SourceFile.proposedRoot? SourceFile.proposal?
  cases f.path.parent? with
  | none => simp
  | some d =>
    cases f.package with
    | none => simp
    | some p => simp [onlyTests_add]

theorem onlyTests_foldl_addKnown (files : List SourceFile) :
    OnlyTests (files.foldl addKnown SortedMap.empty) k ↔
      ∀ f ∈ files, f.proposedRoot? = some k → f.isTest = true := by
  induction files using List.reverseRecOn with
  | nil => simp [onlyTests_empty]
  | append_singleton l f ih =>
    rw [List.foldl_concat, onlyTests_addKnown, ih]
    simp [or_imp, forall_and]

/-- A loose file counts for the root that is innermost once the file is added. -/
theorem onlyTests_addUnknown : OnlyTests (addUnknown roots f) k ↔ OnlyTests roots k ∧
    ∀ d, f.looseDirectory? = some d → innermost? (addUnknown roots f) d = some k →
      f.isTest = true := by
  cases loose : f.looseDirectory? with
  | none =>
    simp [addUnknown_of_not_loose loose]
  | some d =>
    obtain ⟨unknown, directory⟩ := SourceFile.looseDirectory?_eq_some_iff.1 loose
    simp only [Option.some.injEq, forall_eq']
    cases found : covering? roots d with
    | some e =>
      have added : addUnknown roots f = add roots e.1 e.2.packagePrefix f.isTest := by
        simp [addUnknown, directory, unknown, found]
      have inner : innermost? roots d = some e.1 := by rw [innermost?, found, Option.map_some]
      rw [innermost?_addUnknown inner, added, onlyTests_add, Option.some.injEq]
    | none =>
      have added : addUnknown roots f = add roots d "" f.isTest := by
        simp [addUnknown, directory, unknown, found]
      have new : d ∈ (addUnknown roots f).keys := by
        rw [added]
        exact SortedMap.mem_keys_insert_iff.2 (.inl rfl)
      rw [innermost?_self new, added, onlyTests_add, Option.some.injEq]

theorem onlyTests_foldl_addUnknown (roots : SourceRoots) (files : List SourceFile) :
    OnlyTests (files.foldl addUnknown roots) k ↔ OnlyTests roots k ∧
      ∀ f ∈ files, ∀ d, f.looseDirectory? = some d →
        innermost? (files.foldl addUnknown roots) d = some k → f.isTest = true := by
  induction files using List.reverseRecOn with
  | nil => simp
  | append_singleton l f ih =>
    rw [List.foldl_concat, onlyTests_addUnknown, ih]
    -- The files so far keep the roots that they count for.
    have settled : ∀ g ∈ l, ∀ d, g.looseDirectory? = some d →
        innermost? (addUnknown (l.foldl addUnknown roots) f) d =
          innermost? (l.foldl addUnknown roots) d := by
      intro g mem d loose
      obtain ⟨c, inner⟩ := covers_iff_innermost?.1 (covers_foldl_addUnknown mem loose roots)
      rw [inner, innermost?_addUnknown inner]
    simp only [List.forall_mem_append, List.forall_mem_singleton, ← and_assoc]
    refine and_congr_left' (and_congr_right fun _ => ?_)
    refine forall₂_congr fun g mem => forall₂_congr fun d loose => ?_
    rw [settled g mem d loose]

/-! ## Before merging -/

/-- The root that a file counts for before roots are merged. -/
def home? (files : List SourceFile) (f : SourceFile) : Option WorkspacePath :=
  f.proposedRoot?.or (f.looseDirectory?.bind (innermost? (candidates files)))

theorem home?_of_loose (loose : f.looseDirectory? = some d) :
    home? files f = innermost? (candidates files) d := by
  rw [home?, SourceFile.proposedRoot?_of_loose loose, loose]
  rfl

theorem home?_of_proposed (proposed : f.proposedRoot? = some k) : home? files f = some k := by
  rw [home?, proposed]
  rfl

theorem onlyTests_candidates : OnlyTests (candidates files) k ↔
    ∀ f ∈ files, home? files f = some k → f.isTest = true := by
  rw [candidates, onlyTests_foldl_addUnknown, onlyTests_foldl_addKnown, ← candidates]
  constructor
  · rintro ⟨known, loose⟩ f mem counts
    rcases Option.or_eq_some_iff.1 counts with proposed | ⟨-, inner⟩
    · exact known f mem proposed
    · obtain ⟨d, directory, inner⟩ := Option.bind_eq_some_iff.1 inner
      exact loose f mem d directory inner
  · intro all
    constructor
    · intro f mem proposed
      exact all f mem (home?_of_proposed proposed)
    · intro f mem d loose inner
      exact all f mem ((home?_of_loose loose).trans inner)

theorem home?_mem_keys (mem : f ∈ files) (counts : home? files f = some k) :
    k ∈ (candidates files).keys := by
  rcases Option.or_eq_some_iff.1 counts with proposed | ⟨-, inner⟩
  · exact mem_keys_candidates_iff.2 (.inl (mem_keys_proposed_of mem proposed))
  · obtain ⟨d, -, inner⟩ := Option.bind_eq_some_iff.1 inner
    exact mem_keys_of_innermost? inner

/-! ## Merging -/

/-- A root is added, or its flag goes to the innermost root above it. Either way that is the root
innermost afterwards, and directories that it is not above keep theirs. -/
theorem keep_eq_add (last : ∀ f ∈ kept.entries, compare f.1 e.1 = .lt) :
    ∃ k x, (k = e.1 ∨ k ∈ kept.keys) ∧ keep kept e = add kept k x e.2.isTest ∧
      innermost? (keep kept e) e.1 = some k ∧
      ∀ d, ¬ e.1.isAncestorOf d = true → innermost? (keep kept e) d = innermost? kept d := by
  have new : kept.get? e.1 = none := by
    apply Option.eq_none_iff_forall_ne_some.2
    intro r found
    have before := last _ (SortedMap.mem_entries_iff.2 found)
    simp at before
  rcases keep_cases kept e with ⟨f, inner, -, merged⟩ | ⟨-, stays⟩
  · have same : layout (keep kept e) = layout kept := by
      rw [merged]
      exact layout_add_of_some (SortedMap.mem_entries_iff.1 inner.mem)
    refine ⟨f.1, f.2.packagePrefix, .inr (List.mem_map_of_mem inner.mem), merged, ?_, ?_⟩
    · rw [innermost?_eq_of_layout same, innermost?_eq_some_iff]
      exact ⟨f.2, inner⟩
    · intro d _
      exact innermost?_eq_of_layout same d
  · rw [stays]
    refine ⟨e.1, e.2.packagePrefix, .inl rfl, ?_, ?_, ?_⟩
    · rw [add, SortedMap.alter, new]
    · exact innermost?_self (SortedMap.mem_keys_insert_iff.2 (.inl rfl))
    · intro d apart
      apply Option.ext
      intro k
      rw [innermost?_eq_some_iff, innermost?_eq_some_iff]
      refine exists_congr fun r => ?_
      rw [Innermost.of_last (fun _ => SortedMap.mem_entries_insert new) last, if_neg apart]

/-- The flags of the roots so far are those of the roots that were kept or merged. -/
structure Flagged (l : List (WorkspacePath × SourceRoot)) (kept : SourceRoots) : Prop where
  subset : ∀ k ∈ kept.keys, ∃ e ∈ l, e.1 = k
  onlyTests_iff : ∀ k, OnlyTests kept k ↔
    ∀ e ∈ l, innermost? kept e.1 = some k → e.2.isTest = true

theorem flagged_nil : Flagged [] SortedMap.empty where
  subset := nofun
  onlyTests_iff _ := iff_of_true onlyTests_empty nofun

section Step

variable {l : List (WorkspacePath × SourceRoot)} (h : Flagged l kept)
  (last : ∀ f ∈ l, compare f.1 e.1 = .lt)

include h last

theorem Flagged.compare_lt : ∀ g ∈ kept.entries, compare g.1 e.1 = .lt := by
  intro g mem
  obtain ⟨f, earlier, same⟩ := h.subset g.1 (List.mem_map_of_mem mem)
  exact same ▸ last f earlier

theorem Flagged.keep : Flagged (l ++ [e]) (keep kept e) := by
  obtain ⟨c, x, origin, added, own, others⟩ := keep_eq_add (h.compare_lt last)
  constructor
  · intro k mem
    have old : ∀ k ∈ kept.keys, ∃ f ∈ l ++ [e], f.1 = k := by
      intro k mem
      obtain ⟨f, earlier, same⟩ := h.subset k mem
      exact ⟨f, List.mem_append_left _ earlier, same⟩
    rw [added, add, SortedMap.alter, SortedMap.mem_keys_insert_iff] at mem
    rcases mem with rfl | mem
    · rcases origin with rfl | mem
      · exact ⟨e, List.mem_append_right _ List.mem_cons_self, rfl⟩
      · exact old _ mem
    · exact old k mem
  · intro k
    rw [List.forall_mem_append, List.forall_mem_singleton, own, Option.some.injEq, added,
      onlyTests_add, h.onlyTests_iff k, ← added]
    refine and_congr_left' (forall₂_congr fun f earlier => ?_)
    rw [others f.1 (WorkspacePath.not_isAncestorOf_of_compare (last f earlier))]

end Step

/-- A kept root is one of tests if all roots are that it is the innermost one of. -/
theorem flagged_mergeNested (roots : SourceRoots) : Flagged roots.entries (mergeNested roots) := by
  apply SortedMap.foldl_entries_inv Flagged roots flagged_nil
  intro l kept e flagged last
  exact flagged.keep last

/-! ## After merging -/

/-- The root that a file counts for. -/
def root? (files : List SourceFile) (f : SourceFile) : Option WorkspacePath :=
  (home? files f).bind (innermost? (calculate files))

theorem onlyTests_calculate : OnlyTests (calculate files) k ↔
    ∀ f ∈ files, root? files f = some k → f.isTest = true := by
  rw [calculate, ← candidates, (flagged_mergeNested _).onlyTests_iff]
  constructor
  · intro all f mem counts
    obtain ⟨h, home, inner⟩ := Option.bind_eq_some_iff.1 counts
    obtain ⟨r, candidate⟩ := SortedMap.mem_keys_iff.1 (home?_mem_keys mem home)
    have marked := (onlyTests_iff_of_mem candidate).2 (all _ candidate inner)
    exact onlyTests_candidates.1 marked f mem home
  · intro all e candidate inner
    rw [← onlyTests_iff_of_mem candidate, onlyTests_candidates]
    intro f mem home
    exact all f mem (Option.bind_eq_some_iff.2 ⟨e.1, home, inner⟩)

theorem mem_keys_candidates_of_calculate (mem : k ∈ (calculate files).keys) :
    k ∈ (candidates files).keys := by
  obtain ⟨e, candidate, rfl⟩ := (flagged_mergeNested (candidates files)).subset k mem
  exact List.mem_map_of_mem candidate

/-- A directory has the root that its innermost root before merging has. -/
theorem innermost?_calculate {c : WorkspacePath} (inner : innermost? (candidates files) d = some c) :
    innermost? (calculate files) d = innermost? (calculate files) c := by
  have above_iff : ∀ k ∈ (calculate files).keys,
      k.isAncestorOf d = true ↔ k.isAncestorOf c = true := by
    intro k mem
    constructor
    · exact isAncestorOf_innermost? inner (mem_keys_candidates_of_calculate mem)
    · intro above
      exact WorkspacePath.isAncestorOf_trans above (isAncestorOf_of_innermost? inner)
  apply Option.ext
  intro k
  constructor
  · intro found
    have mem := mem_keys_of_innermost? found
    apply innermost?_eq_some mem ((above_iff k mem).1 (isAncestorOf_of_innermost? found))
    intro k' mem' above
    exact isAncestorOf_innermost? found mem' ((above_iff k' mem').2 above)
  · intro found
    have mem := mem_keys_of_innermost? found
    apply innermost?_eq_some mem ((above_iff k mem).2 (isAncestorOf_of_innermost? found))
    intro k' mem' above
    exact isAncestorOf_innermost? found mem' ((above_iff k' mem').1 above)

theorem root?_of_loose (mem : f ∈ files) (loose : f.looseDirectory? = some d) :
    root? files f = innermost? (calculate files) d := by
  obtain ⟨-, directory⟩ := SourceFile.looseDirectory?_eq_some_iff.1 loose
  obtain ⟨c, inner⟩ := covers_iff_innermost?.1 (covers_candidates mem directory)
  rw [root?, home?_of_loose loose, inner, innermost?_calculate inner]
  rfl

/-- Some file that counts for a root brought it in. -/
theorem exists_of_mem_keys_calculate (mem : k ∈ (calculate files).keys) :
    ∃ g ∈ files, root? files g = some k ∧
      (g.proposedRoot? = some k ∨ g.looseDirectory? = some k ∧ Uncovered files k) := by
  rcases mem_keys_candidates_iff.1 (mem_keys_candidates_of_calculate mem) with
    proposal | ⟨uncovered, first⟩
  · obtain ⟨g, mem', x, proposal⟩ := mem_keys_proposed.1 proposal
    have proposed : g.proposedRoot? = some k := by
      rw [SourceFile.proposedRoot?, proposal, Option.map_some]
    refine ⟨g, mem', ?_, .inl proposed⟩
    rw [root?, home?_of_proposed proposed, Option.bind_some, innermost?_self mem]
  · obtain ⟨g, mem', loose⟩ := List.mem_filterMap.1 (List.mem_of_find?_eq_some first)
    refine ⟨g, mem', ?_, .inr ⟨loose, uncovered⟩⟩
    rw [root?_of_loose mem' loose, innermost?_self mem]

/-- A file counts for the innermost root above its directory, or that was brought in by a file that
overtakes it. -/
theorem root?_eq_or_overtaken (mem : f ∈ files) (directory : f.path.parent? = some d)
    (inner : innermost? (calculate files) d = some k) :
    root? files f = some k ∨ ∃ g ∈ files, root? files g = some k ∧ g.Overtakes f := by
  cases package : f.package with
  | none =>
    rw [root?_of_loose mem (SourceFile.looseDirectory?_eq_some_iff.2 ⟨package, directory⟩)]
    exact .inl inner
  | some p =>
    have proposed : f.proposedRoot? = some (rootFor d p).1 := by
      rw [SourceFile.proposedRoot?, SourceFile.proposal?_eq_some directory package,
        Option.map_some]
    have above := rootFor_isAncestorOf d p
    generalize (rootFor d p).1 = h at proposed above
    have root := mem_keys_of_innermost? inner
    have below := isAncestorOf_of_innermost? inner
    by_cases up : k.isAncestorOf h = true
    · left
      rw [root?, home?_of_proposed proposed, Option.bind_some]
      apply innermost?_eq_some root up
      intro c mem' above'
      exact isAncestorOf_innermost? inner mem' (WorkspacePath.isAncestorOf_trans above' above)
    · right
      have between := (WorkspacePath.isAncestorOf_or above below).resolve_right up
      have other : h ≠ k := by
        rintro rfl
        exact up between
      obtain ⟨g, mem', counts, proposed' | ⟨-, uncovered⟩⟩ := exists_of_mem_keys_calculate root
      · exact ⟨g, mem', counts, .between directory proposed proposed' between other below⟩
      · -- A root below the proposal was not opened, because the proposal covers it.
        exact absurd between (uncovered h (mem_keys_proposed_of mem proposed))

/-- A root at the path of a file is none that the file counts for. -/
theorem overtaken_of_root_at_file (mem : f.path ∈ (calculate files).keys) :
    ∃ g ∈ files, root? files g = some f.path ∧ g.Overtakes f := by
  obtain ⟨g, mem', counts, origin⟩ := exists_of_mem_keys_calculate mem
  obtain ⟨d, directory, above⟩ : ∃ d, g.path.parent? = some d ∧ f.path.isAncestorOf d = true := by
    rcases origin with proposed | ⟨loose, -⟩
    · obtain ⟨x, proposal⟩ := SourceFile.exists_of_proposedRoot? proposed
      obtain ⟨d, p, directory, -, root⟩ := SourceFile.proposal?_eq_some_iff.1 proposal
      have above := rootFor_isAncestorOf d p
      rw [root] at above
      exact ⟨d, directory, above⟩
    · obtain ⟨-, directory⟩ := SourceFile.looseDirectory?_eq_some_iff.1 loose
      exact ⟨f.path, directory, WorkspacePath.isAncestorOf_refl _⟩
  have below := WorkspacePath.isAncestorOf_trans above
    (WorkspacePath.isAncestorOf_of_parent? directory)
  refine ⟨g, mem', counts, .within below ?_⟩
  intro same
  rw [same] at above
  exact WorkspacePath.not_isAncestorOf_parent? directory above

/-- The innermost root at or above a file that is no test is not marked as one of tests, unless a
test overtakes the file. -/
theorem isTest_calculate_eq_false (mem : f ∈ files) (production : f.isTest = false)
    (directory : f.path.parent? = some d) (inner : Innermost (calculate files).entries f.path e) :
    e.2.isTest = false ∨ ∃ g ∈ files, g.isTest = true ∧ g.Overtakes f := by
  have found : innermost? (calculate files) f.path = some e.1 :=
    innermost?_eq_some_iff.2 ⟨e.2, inner⟩
  have counted : root? files f = some e.1 ∨
      ∃ g ∈ files, root? files g = some e.1 ∧ g.Overtakes f := by
    by_cases same : e.1 = f.path
    · rw [same]
      exact .inr (overtaken_of_root_at_file (same ▸ mem_keys_of_innermost? found))
    · apply root?_eq_or_overtaken mem directory
      apply innermost?_eq_some (mem_keys_of_innermost? found)
      · exact WorkspacePath.isAncestorOf_parent? directory inner.above same
      · intro c mem' above
        apply isAncestorOf_innermost? found mem'
        exact WorkspacePath.isAncestorOf_trans above
          (WorkspacePath.isAncestorOf_of_parent? directory)
  by_cases marked : e.2.isTest = true
  · rw [← onlyTests_iff_of_mem inner.mem, onlyTests_calculate] at marked
    rcases counted with own | ⟨g, mem', counts, overtakes⟩
    · rw [marked f mem own] at production
      cases production
    · exact .inr ⟨g, mem', marked g mem' counts, overtakes⟩
  · exact .inl (Bool.eq_false_iff.2 marked)

end SourceRoots

end WorkspaceSync
