import WorkspaceSync.ManifestIndex.Load
import WorkspaceSync.Proofs.ManifestIndex.Links

/-!
# Entries of files

A coherent index has of every file either a signature, an owner and a list, or nothing: it is known
by its entries. `nextEntry` says what a load makes of the entry of a file.
-/

namespace WorkspaceSync.ManifestIndex

/-- What an index has of a file. -/
structure Entry where
  signature : FileSignature
  owner : Label
  dependencies : List String
  deriving DecidableEq

/-- An entry in the form in which it is stored. -/
def Entry.parts (e : Option Entry) : Option FileSignature × Option Label × Option (List String) :=
  (e.map (·.signature), e.map (·.owner), e.map (·.dependencies))

/-- What is stored of a file. -/
def held (i : ManifestIndex) (p : FilePath) :
    Option FileSignature × Option Label × Option (List String) :=
  (i.snapshot.get? p, i.owners.get? p, i.list? p)

def entryAt? (i : ManifestIndex) (p : FilePath) : Option Entry := do
  let signature ← i.snapshot.get? p
  let owner ← i.owners.get? p
  let dependencies ← i.list? p
  return ⟨signature, owner, dependencies⟩

/-- Exactly the files with an owner have signatures, and the index is linked. -/
structure Coherent (i : ManifestIndex) : Prop extends i.Linked where
  tracked : ∀ p, (i.snapshot.get? p).isSome = (i.owners.get? p).isSome

variable {i j : ManifestIndex} {p q : FilePath} {l : Label} {e : Option Entry}

theorem held_congr (i : ManifestIndex) (h : p.Same q) : i.held p = i.held q := by
  rw [held, held, i.snapshot.get?_congr h, i.owners.get?_congr h, i.list?_congr h]

theorem entryAt?_congr (i : ManifestIndex) (h : p.Same q) : i.entryAt? p = i.entryAt? q := by
  rw [entryAt?, entryAt?, i.snapshot.get?_congr h, i.owners.get?_congr h, i.list?_congr h]

theorem entryAt?_of_held (h : i.held p = Entry.parts e) : i.entryAt? p = e := by
  simp only [held, Entry.parts, Prod.mk.injEq] at h
  obtain ⟨hs, ho, hl⟩ := h
  rw [entryAt?, hs, ho, hl]
  cases e <;> rfl

theorem Coherent.held_eq (h : i.Coherent) (p : FilePath) :
    i.held p = Entry.parts (i.entryAt? p) := by
  have tracked := h.tracked p
  have listed := h.list?_isSome p
  rw [held, entryAt?]
  cases hs : i.snapshot.get? p with
  | none =>
    have ho : i.owners.get? p = none := by simpa [hs] using tracked
    simp [ho, list?_of_no_owner, Entry.parts]
  | some s =>
    obtain ⟨l, ho⟩ : ∃ l, i.owners.get? p = some l := by
      rw [← Option.isSome_iff_exists, ← tracked, hs]
      rfl
    obtain ⟨d, hd⟩ : ∃ d, i.list? p = some d := by
      rw [← Option.isSome_iff_exists, listed, ho]
      rfl
    simp [ho, hd, Entry.parts]

theorem Coherent.get?_snapshot (h : i.Coherent) (p : FilePath) :
    i.snapshot.get? p = (i.entryAt? p).map (·.signature) := (Prod.mk.inj (h.held_eq p)).1

theorem Coherent.get?_owners (h : i.Coherent) (p : FilePath) :
    i.owners.get? p = (i.entryAt? p).map (·.owner) := (Prod.mk.inj (Prod.mk.inj (h.held_eq p)).2).1

theorem Coherent.list?_eq (h : i.Coherent) (p : FilePath) :
    i.list? p = (i.entryAt? p).map (·.dependencies) := (Prod.mk.inj (Prod.mk.inj (h.held_eq p)).2).2

theorem coherent_of_held (h : i.Linked) (held : ∀ p, ∃ e, i.held p = Entry.parts e) :
    i.Coherent where
  toLinked := h
  tracked p := by
    obtain ⟨e, he⟩ := held p
    simp only [ManifestIndex.held, Entry.parts, Prod.mk.injEq] at he
    rw [he.1, he.2.1]
    cases e <;> rfl

theorem coherent_empty : empty.Coherent where
  toLinked := linked_empty
  tracked p := by simp [empty]

/-- What a load makes of a file that has an owner. -/
def nextEntry (old : Option Entry) (owner : Label) (reading : SignatureReading)
    (parse : Except ManifestProblem DependencyManifest) : Option Entry :=
  let kept := old.map fun e => { e with owner }
  match reading with
  | .missing => none
  | .unreadable => kept
  | .signed s =>
    if old.map (·.signature) = some s then kept
    else
      match parse with
      | .ok m => some ⟨s, owner, m.paths⟩
      | .error _ => kept

theorem nextEntry_of_current {old : Option Entry} {s : FileSignature}
    {parse : Except ManifestProblem DependencyManifest} (h : old.map (·.signature) = some s) :
    nextEntry old l (.signed s) parse = old.map fun e => { e with owner := l } :=
  if_pos h

theorem nextEntry_of_outdated {old : Option Entry} {s : FileSignature}
    {parse : Except ManifestProblem DependencyManifest} (h : old.map (·.signature) ≠ some s) :
    nextEntry old l (.signed s) parse =
      match parse with
      | .ok m => some ⟨s, l, m.paths⟩
      | .error _ => old.map fun e => { e with owner := l } :=
  if_neg h

/-- What an entry has is either carried over from the entry before or from the file. -/
theorem nextEntry_eq_some {old : Option Entry} {reading : SignatureReading}
    {parse : Except ManifestProblem DependencyManifest} {e : Entry}
    (h : nextEntry old l reading parse = some e) :
    e.owner = l ∧ ((∃ o, old = some o ∧ o.signature = e.signature ∧
        o.dependencies = e.dependencies) ∨
      reading = .signed e.signature ∧ old.map (·.signature) ≠ some e.signature ∧
        ∃ m, parse = .ok m ∧ m.paths = e.dependencies) := by
  have carried : ∀ {e : Entry}, (old.map fun e => { e with owner := l }) = some e →
      e.owner = l ∧ ∃ o, old = some o ∧ o.signature = e.signature ∧
        o.dependencies = e.dependencies := by
    intro e he
    obtain ⟨o, ho, rfl⟩ := Option.map_eq_some_iff.1 he
    exact ⟨rfl, o, ho, rfl, rfl⟩
  cases reading with
  | missing => cases h
  | unreadable => exact (carried h).imp_right .inl
  | signed s =>
    by_cases current : old.map (·.signature) = some s
    · rw [nextEntry_of_current current] at h
      exact (carried h).imp_right .inl
    · rw [nextEntry_of_outdated current] at h
      cases parse with
      | ok m =>
        obtain rfl := Option.some.inj h
        exact ⟨rfl, .inr ⟨rfl, current, m, rfl, rfl⟩⟩
      | error _ => exact (carried h).imp_right .inl

end WorkspaceSync.ManifestIndex
