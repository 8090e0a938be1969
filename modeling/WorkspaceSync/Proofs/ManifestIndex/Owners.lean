import WorkspaceSync.ManifestIndex.Load
import WorkspaceSync.Proofs.Label
import WorkspaceSync.Proofs.RuleMap

/-!
# Owners of manifests

A target owns the manifest that it declares if no target before it in the order of labels declares
the same file. `mem_ownersOf_iff` says that loading assigns manifests so, whatever the spellings of
their paths. No target owns two manifests, since it declares at most one.
-/

namespace WorkspaceSync

namespace ManifestIndex

variable {roots : Roots} {rules : RuleMap} {l m : Label} {p q : FilePath}

/-- A Java rule of the target names a manifest that resolves to `q`. -/
def Declares (roots : Roots) (rules : RuleMap) (l : Label) (q : FilePath) : Prop :=
  ∃ r ∈ rules.rules, r.label = l ∧
    ∃ j, r.java? = some j ∧ ∃ a, j.dependencyManifest = some a ∧ roots.resolve a = q

/-- The target is the first one that declares the file, which it spells `q`. -/
def Owns (roots : Roots) (rules : RuleMap) (l : Label) (q : FilePath) : Prop :=
  Declares roots rules l q ∧
    ∀ m p, Declares roots rules m p → p.Same q → (compare l m).isLE

/-- The manifests that are declared, in the order of labels. -/
def declarations (roots : Roots) (rules : RuleMap) : List (FilePath × Label) :=
  rules.rules.filterMap fun rule =>
    (rule.java?.bind (·.dependencyManifest)).map fun a => (roots.resolve a, rule.label)

theorem mem_declarations_iff : (q, l) ∈ declarations roots rules ↔ Declares roots rules l q := by
  simp only [declarations, List.mem_filterMap, Option.map_eq_some_iff, Option.bind_eq_some_iff,
    Prod.mk.injEq]
  constructor
  · rintro ⟨r, hr, a, ⟨j, hj, ha⟩, hq, hl⟩
    exact ⟨r, hr, hl, j, hj, a, ha, hq⟩
  · rintro ⟨r, hr, hl, j, hj, a, ha, hq⟩
    exact ⟨r, hr, a, ⟨j, hj, ha⟩, hq, hl⟩

theorem declarations_sorted (roots : Roots) (hk : rules.Keyed) :
    (declarations roots rules).Pairwise fun d e => compare d.2 e.2 = .lt := by
  refine List.pairwise_filterMap.2 (hk.rules_sorted.imp fun hlt d hd e he => ?_)
  obtain ⟨_, _, rfl⟩ := Option.map_eq_some_iff.1 hd
  obtain ⟨_, _, rfl⟩ := Option.map_eq_some_iff.1 he
  exact hlt

/-- A target declares at most one manifest. -/
theorem Declares.unique (hk : rules.Keyed) (h : Declares roots rules l p)
    (h' : Declares roots rules l q) : p = q := by
  have sorted := declarations_sorted roots hk
  have before := sorted.imp (S := fun d e => d.2 = e.2 → d = e) fun hlt heq => by
    simp [heq] at hlt
  have after := sorted.imp (S := flip fun d e => d.2 = e.2 → d = e) fun hlt heq => by
    simp [heq] at hlt
  have := before.forall_of_forall_of_flip (fun _ _ _ => rfl) after (mem_declarations_iff.2 h)
    (mem_declarations_iff.2 h') rfl
  exact congrArg Prod.fst this

/-- The first declaration of a file is the one by its owner. -/
theorem find?_declarations_eq_some_iff (hk : rules.Keyed) :
    (declarations roots rules).find? (fun d => compare d.1 q == .eq) = some (q, l) ↔
      Owns roots rules l q := by
  have first : ∀ {p m}, (declarations roots rules).find? (fun d => compare d.1 q == .eq) =
      some (p, m) → Declares roots rules m p ∧ p.Same q ∧
        ∀ n r, Declares roots rules n r → r.Same q → (compare m n).isLE := by
    intro p m h
    refine ⟨mem_declarations_iff.1 (List.mem_of_find?_eq_some h), ?_, fun n r hd hr => ?_⟩
    · simpa [FilePath.Same] using List.find?_some h
    · obtain ⟨-, before, after, split, none⟩ := List.find?_eq_some_iff_append.1 h
      have hmem := mem_declarations_iff.2 hd
      rw [split, List.mem_append, List.mem_cons] at hmem
      rcases hmem with hb | he | ha
      · have : ¬ r.Same q := by simpa [FilePath.Same] using none _ hb
        exact absurd hr this
      · obtain ⟨-, rfl⟩ := Prod.mk.inj he
        simp
      · have sorted := declarations_sorted roots hk
        rw [split] at sorted
        have hlt := (List.pairwise_cons.1 (List.pairwise_append.1 sorted).2.1).1 _ ha
        simp [hlt]
  constructor
  · intro h
    exact ⟨(first h).1, (first h).2.2⟩
  · rintro ⟨hd, least⟩
    cases hf : (declarations roots rules).find? (fun d => compare d.1 q == .eq) with
    | none =>
      simpa using List.find?_eq_none.1 hf _ (mem_declarations_iff.2 hd)
    | some e =>
      obtain ⟨p, m⟩ := e
      obtain ⟨hpm, hpq, hle⟩ := first hf
      have hlm : l = m := Std.LawfulEqOrd.eq_of_compare <|
        Std.OrientedCmp.isLE_antisymm (least m p hpm hpq) (hle l q hd (.refl q))
      subst hlm
      rw [hd.unique hk hpm]

/-- Loading gives every manifest to its owner. -/
theorem mem_ownersOf_iff (hk : rules.Keyed) :
    (q, l) ∈ (ownersOf roots rules).entries ↔ Owns roots rules l q := by
  rw [← find?_declarations_eq_some_iff hk]
  have lookup : (ownersOf roots rules).entryAt? q =
      (declarations roots rules).find? (fun d => compare d.1 q == .eq) :=
    SortedMap.entryAt?_ofListFirst _ _
  rw [← lookup]
  constructor
  · intro h
    exact SortedMap.entryAt?_of_mem h
  · intro h
    exact (SortedMap.entryAt?_eq_some_iff.1 h).1

theorem entryAt?_ownersOf_eq_some_iff (hk : rules.Keyed) :
    (ownersOf roots rules).entryAt? p = some (q, l) ↔ Owns roots rules l q ∧ q.Same p := by
  rw [SortedMap.entryAt?_eq_some_iff, mem_ownersOf_iff hk]
  rfl

theorem get?_ownersOf_eq_some_iff (hk : rules.Keyed) :
    (ownersOf roots rules).get? p = some l ↔ ∃ q, Owns roots rules l q ∧ q.Same p := by
  simp only [SortedMap.get?_eq_some_iff, mem_ownersOf_iff hk]
  rfl

/-- The files of one owner are one file. -/
theorem ownersOf_injective (hk : rules.Keyed) (hp : (ownersOf roots rules).get? p = some l)
    (hq : (ownersOf roots rules).get? q = some l) : p.Same q := by
  obtain ⟨p', ⟨hp, -⟩, hpp⟩ := (get?_ownersOf_eq_some_iff hk).1 hp
  obtain ⟨q', ⟨hq, -⟩, hqq⟩ := (get?_ownersOf_eq_some_iff hk).1 hq
  exact hpp.symm.trans (hp.unique hk hq ▸ hqq)

end ManifestIndex

end WorkspaceSync
