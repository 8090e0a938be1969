import Mathlib.Data.List.Forall2
import Mathlib.Data.List.Induction
import WorkspaceSync.SortedMap

/-!
# Look-ups in sorted maps

A look-up sees a key up to the order: keys that compare equal find the same entry.
`entryAt?_eq_some_iff` ties look-ups to membership, and every operation is then known by the
entries it has. Two maps match if their entries agree one by one, keys up to their spelling;
`matches_iff` says that look-ups decide this.
-/

namespace WorkspaceSync

universe u v w

namespace SortedMap

variable {α : Type u} {β : Type v} {γ : Type w} [Ord α] [Std.TransOrd α]

theorem entryAt?_congr (m : SortedMap α β) {a b : α} (h : compare a b = .eq) :
    m.entryAt? a = m.entryAt? b := by
  refine congrArg (List.find? · m.entries) (funext fun e => ?_)
  rw [Std.TransCmp.congr_right h]

theorem get?_congr (m : SortedMap α β) {a b : α} (h : compare a b = .eq) :
    m.get? a = m.get? b := by rw [get?, get?, entryAt?_congr m h]

/-- Entries whose keys compare equal are one entry. -/
theorem eq_of_mem {m : SortedMap α β} {e f : α × β} (he : e ∈ m.entries) (hf : f ∈ m.entries)
    (h : compare e.1 f.1 = .eq) : e = f := by
  have before : m.entries.Pairwise (fun a b => compare a.1 b.1 = .eq → a = b) :=
    m.sorted.imp fun hlt heq => by simp [hlt] at heq
  have after : m.entries.Pairwise (flip fun a b => compare a.1 b.1 = .eq → a = b) :=
    m.sorted.imp fun hlt heq => by simp [Std.OrientedCmp.eq_symm heq] at hlt
  exact before.forall_of_forall_of_flip (fun _ _ _ => rfl) after he hf h

theorem entryAt?_eq_some_iff {m : SortedMap α β} {k : α} {e : α × β} :
    m.entryAt? k = some e ↔ e ∈ m.entries ∧ compare e.1 k = .eq := by
  constructor
  · intro h
    exact ⟨List.mem_of_find?_eq_some h, by simpa using List.find?_some h⟩
  · rintro ⟨he, hk⟩
    cases hf : m.entryAt? k with
    | none => simpa [hk] using List.find?_eq_none.1 hf e he
    | some f =>
      have hfk : compare f.1 k = .eq := by simpa using List.find?_some hf
      rw [eq_of_mem (List.mem_of_find?_eq_some hf) he
        (Std.TransCmp.eq_trans hfk (Std.OrientedCmp.eq_symm hk))]

theorem entryAt?_of_mem {m : SortedMap α β} {a : α} {b : β} (h : (a, b) ∈ m.entries) :
    m.entryAt? a = some (a, b) := entryAt?_eq_some_iff.2 ⟨h, Std.ReflCmp.compare_self⟩

theorem get?_of_mem {m : SortedMap α β} {a : α} {b : β} (h : (a, b) ∈ m.entries) :
    m.get? a = some b := by rw [get?, entryAt?_of_mem h, Option.map_some]

theorem get?_eq_some_iff {m : SortedMap α β} {k : α} {b : β} :
    m.get? k = some b ↔ ∃ a, (a, b) ∈ m.entries ∧ compare a k = .eq := by
  rw [get?, Option.map_eq_some_iff]
  constructor
  · rintro ⟨⟨a, b⟩, he, rfl⟩
    exact ⟨a, entryAt?_eq_some_iff.1 he⟩
  · rintro ⟨a, he⟩
    exact ⟨(a, b), entryAt?_eq_some_iff.2 he, rfl⟩

theorem contains_iff {m : SortedMap α β} {k : α} :
    m.contains k = true ↔ ∃ a ∈ m.keys, compare a k = .eq := by
  simp only [contains_eq_isSome, Option.isSome_iff_exists, get?_eq_some_iff, keys, List.mem_map,
    Prod.exists, exists_and_right, exists_eq_right]
  exact exists_comm.trans (by simp only [exists_and_right])

theorem contains_congr (m : SortedMap α β) {a b : α} (h : compare a b = .eq) :
    m.contains a = m.contains b := by rw [contains, contains, entryAt?_congr m h]

omit [Std.TransOrd α] in
theorem mem_keys_iff {m : SortedMap α β} {k : α} : k ∈ m.keys ↔ ∃ b, (k, b) ∈ m.entries := by
  simp [keys]

omit [Std.TransOrd α] in
/-- Keys are listed once, also up to their spelling. -/
theorem keys_pairwise (m : SortedMap α β) : m.keys.Pairwise fun a b => compare a b ≠ .eq :=
  List.pairwise_map.2 (m.sorted.imp fun hlt => by simp [hlt])

theorem keys_nodup (m : SortedMap α β) : m.keys.Nodup := by
  refine m.keys_pairwise.imp ?_
  rintro a _ apart rfl
  exact apart Std.ReflCmp.compare_self

theorem mem_values_iff {m : SortedMap α β} {b : β} : b ∈ m.values ↔ ∃ k, m.get? k = some b := by
  rw [values, List.mem_map]
  constructor
  · rintro ⟨e, he, rfl⟩
    exact ⟨e.1, get?_of_mem he⟩
  · rintro ⟨k, hk⟩
    obtain ⟨a, he, -⟩ := get?_eq_some_iff.1 hk
    exact ⟨(a, b), he, rfl⟩

omit [Std.TransOrd α] in
/-- An invariant of a fold over the entries, for the entries so far. Each one comes after them. -/
theorem foldl_entries_inv {step : γ → α × β → γ} {c : γ} (Inv : List (α × β) → γ → Prop)
    (m : SortedMap α β) (start : Inv [] c)
    (next : ∀ l c e, Inv l c → (∀ f ∈ l, compare f.1 e.1 = .lt) → Inv (l ++ [e]) (step c e)) :
    Inv m.entries (m.entries.foldl step c) := by
  have sorted := m.sorted
  generalize m.entries = l at sorted
  induction l using List.reverseRecOn with
  | nil => exact start
  | append_singleton l e ih =>
    obtain ⟨before, -, last⟩ := List.pairwise_append.1 sorted
    rw [List.foldl_concat]
    apply next l _ e (ih before)
    intro f mem
    exact last f mem e List.mem_cons_self

/-! ## What the operations do to look-ups -/

omit [Std.TransOrd α] in
theorem mem_keys_filter {p : α → β → Bool} {m : SortedMap α β} {k : α} :
    k ∈ (m.filter p).keys ↔ ∃ b, (k, b) ∈ m.entries ∧ p k b = true := by
  simp only [mem_keys_iff, entries_filter, List.mem_filter]

theorem entryAt?_map (f : α → β → γ) (m : SortedMap α β) (k : α) :
    (m.map f).entryAt? k = (m.entryAt? k).map fun e => (e.1, f e.1 e.2) := by
  apply Option.ext
  intro e
  simp only [entryAt?_eq_some_iff, entries_map, List.mem_map, Option.map_eq_some_iff]
  constructor
  · rintro ⟨⟨g, hg, rfl⟩, hk⟩
    exact ⟨g, ⟨hg, hk⟩, rfl⟩
  · rintro ⟨g, ⟨hg, hk⟩, rfl⟩
    exact ⟨⟨g, hg, rfl⟩, hk⟩

theorem get?_filterMap (f : α → β → Option γ) (m : SortedMap α β) (k : α) :
    (m.filterMap f).get? k = (m.entryAt? k).bind fun e => f e.1 e.2 := by
  apply Option.ext
  intro c
  simp only [get?_eq_some_iff, filterMap, List.mem_filterMap, Option.bind_eq_some_iff,
    entryAt?_eq_some_iff, Option.map_eq_some_iff]
  constructor
  · rintro ⟨a, ⟨e, he, c, hc, h⟩, hk⟩
    obtain ⟨rfl, rfl⟩ := Prod.mk.inj h
    exact ⟨e, ⟨he, hk⟩, hc⟩
  · rintro ⟨e, ⟨he, hk⟩, hc⟩
    exact ⟨e.1, ⟨e, he, c, hc, rfl⟩, hk⟩

omit [Std.TransOrd α] in
theorem mem_insertEntry_iff {k : α} {b : β} {l : List (α × β)} {e : α × β}
    (h : ∀ f ∈ l, compare k f.1 ≠ .eq) : e ∈ insertEntry k b l ↔ e = (k, b) ∨ e ∈ l := by
  induction l with
  | nil => simp [insertEntry]
  | cons f rest ih =>
    rw [insertEntry]
    split
    · simp
    · rename_i hk
      exact absurd hk (h f (by simp))
    · rw [List.mem_cons, ih fun g hg => h g (List.mem_cons_of_mem _ hg), List.mem_cons]
      exact or_left_comm

/-- Insertion of a key that is new keeps all entries. -/
theorem mem_entries_insert {m : SortedMap α β} {k : α} {b : β} {e : α × β}
    (h : m.get? k = none) : e ∈ (m.insert k b).entries ↔ e = (k, b) ∨ e ∈ m.entries :=
  mem_insertEntry_iff fun f hf hk => by
    rw [get?_congr m hk, get?_of_mem hf] at h
    cases h

omit [Std.TransOrd α] in
theorem length_insertEntry {k : α} {b : β} {l : List (α × β)}
    (h : ∀ f ∈ l, compare k f.1 ≠ .eq) : (insertEntry k b l).length = l.length + 1 := by
  induction l with
  | nil => rfl
  | cons f rest ih =>
    rw [insertEntry]
    split
    · rfl
    · rename_i hk
      exact absurd hk (h f (by simp))
    · rw [List.length_cons, ih fun g hg => h g (List.mem_cons_of_mem _ hg), List.length_cons]

theorem size_insertIfNew (m : SortedMap α β) (k : α) (b : β) :
    (m.insertIfNew k b).size = if m.contains k then m.size else m.size + 1 := by
  unfold insertIfNew
  split
  · rfl
  · rename_i absent
    apply length_insertEntry
    intro f hf same
    rw [contains_congr m same] at absent
    exact absent (contains_iff.2 ⟨f.1, List.mem_map_of_mem hf, Std.ReflCmp.compare_self⟩)

theorem entryAt?_insertIfNew (m : SortedMap α β) (a k : α) (b : β) :
    (m.insertIfNew a b).entryAt? k =
      (m.entryAt? k).or (if compare a k = .eq then some (a, b) else none) := by
  unfold insertIfNew
  split
  · rename_i hc
    by_cases hk : compare a k = .eq
    · rw [contains, entryAt?_congr m hk] at hc
      rw [if_pos hk, Option.or_of_isSome hc]
    · rw [if_neg hk, Option.or_none]
  · rename_i hc
    have hn : m.get? a = none := by simpa [contains_eq_isSome] using hc
    apply Option.ext
    intro e
    rw [entryAt?_eq_some_iff, mem_entries_insert hn, Option.or_eq_some_iff,
      entryAt?_eq_some_iff]
    by_cases hk : compare a k = .eq
    · have hnk : m.entryAt? k = none := by
        simpa [get?, entryAt?_congr m hk] using hn
      have : ¬ (e ∈ m.entries ∧ compare e.1 k = .eq) := fun he => by
        simp [entryAt?_eq_some_iff.2 he] at hnk
      simp only [if_pos hk, Option.some.injEq, hnk, true_and, this, false_or]
      constructor
      · rintro ⟨rfl | he, hek⟩
        · rfl
        · exact absurd ⟨he, hek⟩ this
      · rintro rfl
        exact ⟨.inl rfl, hk⟩
    · simp only [if_neg hk, reduceCtorEq, and_false, or_false]
      constructor
      · rintro ⟨rfl | he, hek⟩
        · exact absurd hek hk
        · exact ⟨he, hek⟩
      · rintro ⟨he, hek⟩
        exact ⟨.inr he, hek⟩

/-- What a map has already counts, and of further pairs whose keys compare equal the first one. -/
theorem entryAt?_foldl_insertIfNew (l : List (α × β)) (m : SortedMap α β) (k : α) :
    (l.foldl (fun m e => m.insertIfNew e.1 e.2) m).entryAt? k =
      (m.entryAt? k).or (l.find? fun e => compare e.1 k == .eq) := by
  induction l generalizing m with
  | nil => simp
  | cons e rest ih =>
    rw [List.foldl_cons, ih, entryAt?_insertIfNew, Option.or_assoc, List.find?_cons]
    by_cases hk : compare e.1 k = .eq
    · simp [hk]
    · have hf : (compare e.1 k == .eq) = false := by simpa using hk
      simp [hk, hf]

theorem entryAt?_ofListFirst (l : List (α × β)) (k : α) :
    (ofListFirst l).entryAt? k = l.find? fun e => compare e.1 k == .eq :=
  entryAt?_foldl_insertIfNew l empty k

section Lawful

variable [DecidableEq α] [Std.LawfulEqOrd α]

/-- What an insertion does to every look-up, where the order separates all keys. -/
theorem get?_insert_eq (m : SortedMap α β) (k a : α) (b : β) :
    (m.insert k b).get? a = if k = a then some b else m.get? a := by
  simp only [get?_insert, Std.LawfulEqOrd.compare_eq_iff_eq]

theorem get?_alter_eq (m : SortedMap α β) (k a : α) (f : Option β → β) :
    (m.alter k f).get? a = if k = a then some (f (m.get? k)) else m.get? a :=
  get?_insert_eq m k a _

/-- What a removal does to every look-up, where the order separates all keys. -/
theorem get?_erase_eq (m : SortedMap α β) (k a : α) :
    (m.erase k).get? a = if a = k then none else m.get? a := by
  simp only [get?_erase, Std.LawfulEqOrd.compare_eq_iff_eq]

omit [DecidableEq α] in
theorem mem_entries_iff {m : SortedMap α β} {k : α} {b : β} :
    (k, b) ∈ m.entries ↔ m.get? k = some b := by
  simp only [get?_eq_some_iff, Std.LawfulEqOrd.compare_eq_iff_eq, exists_eq_right]

omit [DecidableEq α] in
theorem mem_keys_iff_get? {m : SortedMap α β} {k : α} : k ∈ m.keys ↔ ∃ b, m.get? k = some b := by
  simp only [mem_keys_iff, mem_entries_iff]

theorem mem_keys_insert_iff {m : SortedMap α β} {k a : α} {b : β} :
    a ∈ (m.insert k b).keys ↔ a = k ∨ a ∈ m.keys := by
  rw [mem_keys_iff_get?, mem_keys_iff_get?, get?_insert_eq]
  by_cases same : k = a
  · simp [same]
  · simp [same, Ne.symm same]

/-- Of values with one key the first is found. -/
theorem get?_ofListFirst_map (key : β → α) (l : List β) (k : α) :
    (ofListFirst (l.map fun b => (key b, b))).get? k = l.find? fun b => key b = k := by
  have same (b : β) : (compare (key b) k == .eq) = decide (key b = k) := by
    rw [Bool.eq_iff_iff]
    simp
  rw [get?, entryAt?_ofListFirst, List.find?_map, Option.map_map]
  simp only [Function.comp_def, Option.map_id', same]

end Lawful

theorem mem_ofListFirst {l : List (α × β)} {e : α × β} (h : e ∈ (ofListFirst l).entries) :
    e ∈ l :=
  List.mem_of_find?_eq_some ((entryAt?_ofListFirst l e.1).symm.trans (entryAt?_of_mem h))

theorem mem_keys_ofListFirst [Std.LawfulEqOrd α] {l : List (α × β)} {k : α} :
    k ∈ (ofListFirst l).keys ↔ ∃ e ∈ l, e.1 = k := by
  constructor
  · intro h
    obtain ⟨b, he⟩ := mem_keys_iff.1 h
    exact ⟨_, mem_ofListFirst he, rfl⟩
  · rintro ⟨e, he, rfl⟩
    have found : (ofListFirst l).contains e.1 = true := by
      rw [contains, entryAt?_ofListFirst, List.find?_isSome]
      exact ⟨e, he, by simp⟩
    obtain ⟨a, ha, same⟩ := contains_iff.1 found
    rwa [← Std.LawfulEqOrd.compare_eq_iff_eq.1 same]

/-! ## Values that know their keys -/

/-- Every value is kept under its own key. -/
def KeyedBy (key : β → α) (m : SortedMap α β) : Prop := ∀ e ∈ m.entries, key e.2 = e.1

section KeyedBy

variable {key : β → α} {m : SortedMap α β}

omit [Std.TransOrd α] in
theorem keyedBy_empty : (empty : SortedMap α β).KeyedBy key := fun _ h => by simp at h

theorem KeyedBy.insertIfNew (h : m.KeyedBy key) (b : β) :
    (m.insertIfNew (key b) b).KeyedBy key := by
  unfold SortedMap.insertIfNew
  split
  · exact h
  · rename_i hc
    have hn : m.get? (key b) = none := by simpa [contains_eq_isSome] using hc
    intro e he
    rcases (mem_entries_insert hn).1 he with rfl | he
    · rfl
    · exact h e he

omit [Std.TransOrd α] in
theorem KeyedBy.filter (h : m.KeyedBy key) (p : α → β → Bool) : (m.filter p).KeyedBy key :=
  fun e he => h e (List.mem_of_mem_filter he)

theorem KeyedBy.mem_values_iff (h : m.KeyedBy key) {b : β} :
    b ∈ m.values ↔ m.get? (key b) = some b := by
  rw [values, List.mem_map]
  constructor
  · rintro ⟨⟨a, b⟩, he, rfl⟩
    have hk : key b = a := h _ he
    rw [hk, get?_of_mem he]
  · intro hb
    obtain ⟨a, he, -⟩ := get?_eq_some_iff.1 hb
    exact ⟨(a, b), he, rfl⟩

omit [Std.TransOrd α] in
/-- The values stand in the order of their keys. -/
theorem KeyedBy.values_sorted (h : m.KeyedBy key) :
    m.values.Pairwise fun a b => compare (key a) (key b) = .lt := by
  refine List.pairwise_map.2 (m.sorted.imp_of_mem fun he hf hlt => ?_)
  rwa [h _ he, h _ hf]

end KeyedBy

/-! ## Maps with the same bindings -/

/-- The same bindings in the same order, keys up to their spelling. -/
def Matches (m n : SortedMap α β) : Prop :=
  List.Forall₂ (fun e f => compare e.1 f.1 = .eq ∧ e.2 = f.2) m.entries n.entries

private theorem find?_eq_none_of_lt {l : List (α × β)} {a k : α}
    (h : ∀ e ∈ l, compare a e.1 = .lt) (hk : compare a k = .eq) :
    l.find? (fun e => compare e.1 k == .eq) = none := by
  apply List.find?_eq_none.2
  intro e he hek
  have hae : compare a e.1 = .eq :=
    Std.TransCmp.eq_trans hk (Std.OrientedCmp.eq_symm (by simpa using hek))
  have hlt := h e he
  simp [hae] at hlt

private theorem forall₂_of_find?_eq {l r : List (α × β)}
    (hl : l.Pairwise (fun a b => compare a.1 b.1 = .lt))
    (hr : r.Pairwise (fun a b => compare a.1 b.1 = .lt))
    (h : ∀ k, (l.find? fun e => compare e.1 k == .eq).map (·.2) =
      (r.find? fun e => compare e.1 k == .eq).map (·.2)) :
    List.Forall₂ (fun e f => compare e.1 f.1 = .eq ∧ e.2 = f.2) l r := by
  induction l generalizing r with
  | nil =>
    cases r with
    | nil => exact .nil
    | cons f r => simpa using h f.1
  | cons e l ih =>
    cases r with
    | nil => simpa using h e.1
    | cons f r =>
      obtain ⟨hel, hl⟩ := List.pairwise_cons.1 hl
      obtain ⟨hfr, hr⟩ := List.pairwise_cons.1 hr
      have hef : compare e.1 f.1 = .eq := by
        cases hc : compare e.1 f.1 with
        | eq => rfl
        | lt =>
          have hn := find?_eq_none_of_lt (l := f :: r) (a := e.1) (k := e.1) (fun g hg => by
            rcases List.mem_cons.1 hg with rfl | hg
            · exact hc
            · exact Std.TransCmp.lt_trans hc (hfr g hg)) Std.ReflCmp.compare_self
          simpa [hn] using h e.1
        | gt =>
          have hfe := Std.OrientedCmp.gt_iff_lt.1 hc
          have hn := find?_eq_none_of_lt (l := e :: l) (a := f.1) (k := f.1) (fun g hg => by
            rcases List.mem_cons.1 hg with rfl | hg
            · exact hfe
            · exact Std.TransCmp.lt_trans hfe (hel g hg)) Std.ReflCmp.compare_self
          simpa [hn] using (h f.1).symm
      refine .cons ⟨hef, ?_⟩ (ih hl hr fun k => ?_)
      · simpa [Std.OrientedCmp.eq_symm hef] using h e.1
      · by_cases hk : compare e.1 k = .eq
        · have hfk := Std.TransCmp.eq_trans (Std.OrientedCmp.eq_symm hef) hk
          rw [find?_eq_none_of_lt hel hk, find?_eq_none_of_lt hfr hfk]
        · have hek : (compare e.1 k == .eq) = false := by simpa using hk
          have hfk : (compare f.1 k == .eq) = false := by
            rw [← Std.TransCmp.congr_left hef, hek]
          simpa [List.find?_cons, hek, hfk] using h k

theorem matches_iff {m n : SortedMap α β} : m.Matches n ↔ ∀ k, m.get? k = n.get? k := by
  constructor
  · intro h k
    have find : ∀ {l r : List (α × β)},
        List.Forall₂ (fun e f => compare e.1 f.1 = .eq ∧ e.2 = f.2) l r →
        (l.find? fun e => compare e.1 k == .eq).map (·.2) =
          (r.find? fun e => compare e.1 k == .eq).map (·.2) := by
      intro l r h
      induction h with
      | nil => rfl
      | @cons e f l r hef _ ih =>
        rw [List.find?_cons, List.find?_cons, Std.TransCmp.congr_left hef.1]
        split
        · simp [hef.2]
        · exact ih
    exact find h
  · exact forall₂_of_find?_eq m.sorted n.sorted

theorem eq_of_get?_eq [Std.LawfulEqOrd α] {m n : SortedMap α β}
    (h : ∀ k, m.get? k = n.get? k) : m = n := by
  have hm := matches_iff.2 h
  have entries : m.entries = n.entries :=
    List.forall₂_eq_eq_eq ▸ hm.imp fun e f hef =>
      Prod.ext (Std.LawfulEqCmp.eq_of_compare hef.1) hef.2
  cases m
  cases n
  simpa using entries

/-! ## Spellings of keys -/

theorem mem_keys_insert {m : SortedMap α β} {k a : α} {b : β} (h : a ∈ (m.insert k b).keys) :
    a = k ∨ a ∈ m.keys := by
  obtain ⟨e, he, rfl⟩ := List.mem_map.1 h
  exact mem_insertEntry he

theorem map_fst_insertEntry {l : List (α × β)} {k : α} {b : β}
    (sorted : l.Pairwise fun a b => compare a.1 b.1 = .lt) (here : ∃ e ∈ l, compare k e.1 = .eq) :
    (insertEntry k b l).map (·.1) = l.map (·.1) := by
  induction l with
  | nil => simp at here
  | cons e rest ih =>
    obtain ⟨first, sorted⟩ := List.pairwise_cons.1 sorted
    obtain ⟨f, hf, same⟩ := here
    rw [insertEntry]
    split
    · rename_i before
      rcases List.mem_cons.1 hf with rfl | hf
      · simp [before] at same
      · simp [Std.TransCmp.lt_trans before (first f hf)] at same
    · rfl
    · rename_i after
      rcases List.mem_cons.1 hf with rfl | hf
      · simp [after] at same
      · rw [List.map_cons, ih sorted ⟨f, hf, same⟩, List.map_cons]

/-- Binding a key that is there keeps all keys in their spellings. -/
theorem keys_insert_of_contains {m : SortedMap α β} {k : α} (b : β) (h : m.contains k = true) :
    (m.insert k b).keys = m.keys := by
  obtain ⟨a, ha, same⟩ := contains_iff.1 h
  obtain ⟨e, he, rfl⟩ := List.mem_map.1 ha
  exact map_fst_insertEntry m.sorted ⟨e, he, Std.OrientedCmp.eq_symm same⟩

omit [Std.TransOrd α] in
theorem mem_keys_of_mem_keys_filter {p : α → β → Bool} {m : SortedMap α β} {a : α}
    (h : a ∈ (m.filter p).keys) : a ∈ m.keys := by
  obtain ⟨b, he, -⟩ := mem_keys_filter.1 h
  exact mem_keys_iff.2 ⟨b, he⟩

omit [Std.TransOrd α] in
theorem mem_keys_of_mem_keys_filterMap {f : α → β → Option γ} {m : SortedMap α β} {a : α}
    (h : a ∈ (m.filterMap f).keys) : a ∈ m.keys := by
  obtain ⟨c, hc⟩ := mem_keys_iff.1 h
  obtain ⟨⟨a, b⟩, he, hf⟩ := List.mem_filterMap.1 hc
  obtain ⟨_, -, heq⟩ := Option.map_eq_some_iff.1 hf
  obtain ⟨rfl, -⟩ := Prod.mk.inj heq
  exact mem_keys_iff.2 ⟨b, he⟩

/-- Maps with the same bindings are equal if a third map has their keys in the same spelling. -/
theorem eq_of_get?_eq_of_keys {m n : SortedMap α β} (o : SortedMap α γ)
    (hm : ∀ a ∈ m.keys, a ∈ o.keys) (hn : ∀ a ∈ n.keys, a ∈ o.keys)
    (h : ∀ k, m.get? k = n.get? k) : m = n := by
  have spelled : ∀ e ∈ m.entries, ∀ f ∈ n.entries, compare e.1 f.1 = .eq → e.1 = f.1 := by
    intro e he f hf hef
    obtain ⟨b, hb⟩ := mem_keys_iff.1 (hm e.1 (List.mem_map_of_mem he))
    obtain ⟨d, hd⟩ := mem_keys_iff.1 (hn f.1 (List.mem_map_of_mem hf))
    exact (Prod.mk.inj (eq_of_mem hb hd hef)).1
  have entries : m.entries = n.entries := by
    rw [← List.forall₂_eq_eq_eq]
    refine List.forall₂_iff_zip.2 ⟨(matches_iff.2 h).length_eq, fun {e f} hz => ?_⟩
    obtain ⟨hef, hv⟩ := List.forall₂_iff_zip.1 (matches_iff.2 h) |>.2 hz
    exact Prod.ext (spelled e (List.of_mem_zip hz).1 f (List.of_mem_zip hz).2 hef) hv
  cases m
  cases n
  simpa using entries

/-- Maps are equal if every look-up finds the same entry, spelling and all. -/
theorem eq_of_entryAt?_eq {m n : SortedMap α β} (h : ∀ k, m.entryAt? k = n.entryAt? k) :
    m = n := by
  apply eq_of_get?_eq_of_keys n _ (fun _ hn => hn)
  · intro k
    rw [get?, get?, h]
  · intro a ha
    obtain ⟨b, hb⟩ := mem_keys_iff.1 ha
    have found := (h a).symm.trans (entryAt?_of_mem hb)
    exact mem_keys_iff.2 ⟨b, (entryAt?_eq_some_iff.1 found).1⟩

/-! ## Maps from lists -/

omit [Std.TransOrd α] in
private theorem insertEntry_of_lt [Std.OrientedOrd α] {l : List (α × β)} {k : α} {b : β}
    (h : ∀ e ∈ l, compare e.1 k = .lt) : insertEntry k b l = l ++ [(k, b)] := by
  induction l with
  | nil => rfl
  | cons e rest ih =>
    have greater : compare k e.1 = .gt := Std.OrientedCmp.gt_iff_lt.2 (h e List.mem_cons_self)
    rw [insertEntry, greater, List.cons_append]
    dsimp only
    rw [ih fun f hf => h f (List.mem_cons_of_mem e hf)]

/-- A key that is greater than all others comes last. -/
theorem entries_insert_of_lt {m : SortedMap α β} {k : α} {b : β}
    (h : ∀ e ∈ m.entries, compare e.1 k = .lt) : (m.insert k b).entries = m.entries ++ [(k, b)] :=
  insertEntry_of_lt h

private theorem entries_foldl_insert (l : List (α × β)) {m : SortedMap α β}
    (sorted : (m.entries ++ l).Pairwise fun a b => compare a.1 b.1 = .lt) :
    (l.foldl (fun m e => m.insert e.1 e.2) m).entries = m.entries ++ l := by
  induction l generalizing m with
  | nil => rw [List.foldl_nil, List.append_nil]
  | cons e l ih =>
    have last : (m.insert e.1 e.2).entries = m.entries ++ [e] :=
      entries_insert_of_lt fun f hf =>
        (List.pairwise_append.1 sorted).2.2 f hf e List.mem_cons_self
    rw [List.foldl_cons, ih, last, List.append_assoc, List.singleton_append]
    rwa [last, List.append_assoc, List.singleton_append]

omit [Std.TransOrd α] in
theorem ext_entries {m n : SortedMap α β} (h : m.entries = n.entries) : m = n := by
  cases m
  cases n
  simpa using h

/-- A map is made of its entries. -/
theorem ofList_entries (m : SortedMap α β) : ofList m.entries = m :=
  ext_entries (entries_foldl_insert m.entries (m := empty) m.sorted)

end SortedMap

namespace SortedSet

variable {α : Type u} [Ord α] [Std.TransOrd α]

private theorem insertEntry_of_mem {l : List (α × Unit)} {a : α}
    (hl : l.Pairwise (fun e f => compare e.1 f.1 = .lt)) (h : ∃ e ∈ l, compare a e.1 = .eq) :
    SortedMap.insertEntry a () l = l := by
  have keys : Function.Injective (List.map fun e : α × Unit => e.1) :=
    List.map_injective_iff.2 fun _ _ same => Prod.ext same rfl
  exact keys (SortedMap.map_fst_insertEntry hl h)

/-- Adding an element that is there changes nothing. -/
theorem add_eq_insertIfNew (s : SortedSet α) (a : α) : s.add a = SortedMap.insertIfNew s a () := by
  unfold add SortedMap.insertIfNew
  split
  · rename_i hc
    obtain ⟨b, hb, hk⟩ := SortedMap.contains_iff.1 hc
    obtain ⟨e, he, rfl⟩ := List.mem_map.1 hb
    have := insertEntry_of_mem s.sorted ⟨e, he, Std.OrientedCmp.eq_symm hk⟩
    cases s
    simpa [SortedMap.insert] using this
  · rfl

theorem ofList_eq_ofListFirst (l : List α) :
    ofList l = SortedMap.ofListFirst (l.map fun a => (a, ())) := by
  rw [ofList, SortedMap.ofListFirst, List.foldl_map]
  exact congrArg (List.foldl · SortedMap.empty l) (funext₂ add_eq_insertIfNew)

theorem mem_of_mem_toList_ofList {l : List α} {a : α} (h : a ∈ (ofList l).toList) : a ∈ l := by
  obtain ⟨e, he, rfl⟩ := List.mem_map.1 h
  rw [ofList_eq_ofListFirst] at he
  obtain ⟨b, hb, rfl⟩ := List.mem_map.1 (SortedMap.mem_ofListFirst he)
  exact hb

theorem contains_ofList {l : List α} {a : α} :
    SortedMap.contains (ofList l) a = true ↔ ∃ b ∈ l, compare b a = .eq := by
  rw [ofList_eq_ofListFirst, SortedMap.contains, SortedMap.entryAt?_ofListFirst, List.find?_isSome]
  simp

theorem exists_mem_toList_ofList {l : List α} {a : α} (h : a ∈ l) :
    ∃ b ∈ (ofList l).toList, compare b a = .eq := by
  rw [toList, ← SortedMap.contains_iff, contains_ofList]
  exact ⟨a, h, Std.ReflCmp.compare_self⟩

theorem contains_ofList_iff [Std.LawfulEqOrd α] {l : List α} {a : α} :
    SortedMap.contains (ofList l) a = true ↔ a ∈ l := by
  simp only [contains_ofList, Std.LawfulEqOrd.compare_eq_iff_eq, exists_eq_right]

/-- A set is made of its elements. -/
theorem ofList_toList (s : SortedSet α) : ofList s.toList = s := by
  rw [ofList, toList, SortedMap.keys, List.foldl_map]
  exact SortedMap.ofList_entries s

/-- The set of the keys of a map has them in the same spelling. -/
theorem entryAt?_ofList_keys {β : Type v} (m : SortedMap α β) (k : α) :
    (ofList m.keys).entryAt? k = (m.entryAt? k).map fun e => (e.1, ()) := by
  rw [ofList_eq_ofListFirst, SortedMap.entryAt?_ofListFirst, SortedMap.keys, List.map_map,
    List.find?_map]
  rfl

end SortedSet

end WorkspaceSync
