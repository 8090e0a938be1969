/-!
# Sorted maps

A finite map is the list of its entries in strictly increasing key order, and carries the proof.
Keys are compared by `compare`, which need not separate all keys: of keys that compare equal the
first one inserted stays, and a later insertion only replaces the value. `get?_insert` and
`get?_erase` say what the two updates do to every look-up.
-/

namespace WorkspaceSync

universe u v w

structure SortedMap (α : Type u) (β : Type v) [Ord α] where
  entries : List (α × β)
  sorted : entries.Pairwise (fun a b => compare a.1 b.1 = .lt)

namespace SortedMap

variable {α : Type u} {β : Type v} {γ : Type w} [Ord α]

instance [DecidableEq α] [DecidableEq β] : DecidableEq (SortedMap α β) := fun m n =>
  decidable_of_iff (m.entries = n.entries) (by cases m; cases n; simp)

def empty : SortedMap α β := ⟨[], .nil⟩

instance : EmptyCollection (SortedMap α β) := ⟨empty⟩
instance : Inhabited (SortedMap α β) := ⟨empty⟩

def size (m : SortedMap α β) : Nat := m.entries.length

def isEmpty (m : SortedMap α β) : Bool := m.entries.isEmpty

def keys (m : SortedMap α β) : List α := m.entries.map (·.1)

def values (m : SortedMap α β) : List β := m.entries.map (·.2)

/-- The entry whose key compares equal to `k`. -/
def entryAt? (m : SortedMap α β) (k : α) : Option (α × β) :=
  m.entries.find? (fun e => compare e.1 k == .eq)

def get? (m : SortedMap α β) (k : α) : Option β := (m.entryAt? k).map (·.2)

def contains (m : SortedMap α β) (k : α) : Bool := (m.entryAt? k).isSome

/-- One pass over the entries; an equal key keeps its spelling. -/
def insertEntry (k : α) (v : β) : List (α × β) → List (α × β)
  | [] => [(k, v)]
  | e :: rest =>
    match compare k e.1 with
    | .lt => (k, v) :: e :: rest
    | .eq => (e.1, v) :: rest
    | .gt => e :: insertEntry k v rest

theorem mem_insertEntry {k : α} {v : β} {e : α × β} {l : List (α × β)}
    (h : e ∈ insertEntry k v l) : e.1 = k ∨ e.1 ∈ l.map (·.1) := by
  induction l with
  | nil => simp_all [insertEntry]
  | cons f rest ih =>
    rw [insertEntry] at h
    split at h
    · rcases List.mem_cons.1 h with rfl | h
      · exact .inl rfl
      · exact .inr (List.mem_map_of_mem h)
    · rcases List.mem_cons.1 h with rfl | h
      · exact .inr (by simp)
      · exact .inr (by simp [List.mem_map_of_mem h])
    · rcases List.mem_cons.1 h with rfl | h
      · exact .inr (by simp)
      · exact (ih h).imp_right (by simp_all)

theorem pairwise_insertEntry [Std.TransOrd α] (k : α) (v : β) {l : List (α × β)}
    (h : l.Pairwise (fun a b => compare a.1 b.1 = .lt)) :
    (insertEntry k v l).Pairwise (fun a b => compare a.1 b.1 = .lt) := by
  induction l with
  | nil => simp [insertEntry]
  | cons e rest ih =>
    obtain ⟨he, hr⟩ := List.pairwise_cons.1 h
    rw [insertEntry]
    split
    · rename_i hk
      refine List.pairwise_cons.2 ⟨fun a ha => ?_, h⟩
      rcases List.mem_cons.1 ha with rfl | ha
      · exact hk
      · exact Std.TransCmp.lt_trans hk (he a ha)
    · exact List.pairwise_cons.2 ⟨fun a ha => he a ha, hr⟩
    · rename_i hk
      refine List.pairwise_cons.2 ⟨fun a ha => ?_, ih hr⟩
      rcases mem_insertEntry ha with hak | hak
      · exact hak ▸ Std.OrientedCmp.gt_iff_lt.1 hk
      · obtain ⟨b, hb, hba⟩ := List.mem_map.1 hak
        exact hba ▸ he b hb

/-- Binds `k` to `v`; a key that compares equal to `k` keeps its spelling. -/
def insert [Std.TransOrd α] (m : SortedMap α β) (k : α) (v : β) : SortedMap α β :=
  ⟨insertEntry k v m.entries, pairwise_insertEntry k v m.sorted⟩

/-- Binds `k` only where nothing is bound. -/
def insertIfNew [Std.TransOrd α] (m : SortedMap α β) (k : α) (v : β) : SortedMap α β :=
  if m.contains k then m else m.insert k v

def filter (p : α → β → Bool) (m : SortedMap α β) : SortedMap α β :=
  ⟨m.entries.filter (fun e => p e.1 e.2), m.sorted.filter _⟩

def erase (m : SortedMap α β) (k : α) : SortedMap α β :=
  m.filter (fun a _ => compare a k != .eq)

def map (f : α → β → γ) (m : SortedMap α β) : SortedMap α γ :=
  ⟨m.entries.map (fun e => (e.1, f e.1 e.2)), List.pairwise_map.2 m.sorted⟩

/-- Keeps the keys for which `f` gives a value. -/
def filterMap (f : α → β → Option γ) (m : SortedMap α β) : SortedMap α γ where
  entries := m.entries.filterMap fun e => (f e.1 e.2).map fun c => (e.1, c)
  sorted := List.pairwise_filterMap.2 <| m.sorted.imp fun h a ha b hb => by
    obtain ⟨_, _, rfl⟩ := Option.map_eq_some_iff.1 ha
    obtain ⟨_, _, rfl⟩ := Option.map_eq_some_iff.1 hb
    exact h

/-- Binds, replaces or leaves `k`, by what is bound to it. -/
def alter [Std.TransOrd α] (m : SortedMap α β) (k : α) (f : Option β → β) : SortedMap α β :=
  m.insert k (f (m.get? k))

/-- Later pairs replace the values of earlier ones. -/
def ofList [Std.TransOrd α] (l : List (α × β)) : SortedMap α β :=
  l.foldl (fun m e => m.insert e.1 e.2) empty

/-- Earlier pairs win. -/
def ofListFirst [Std.TransOrd α] (l : List (α × β)) : SortedMap α β :=
  l.foldl (fun m e => m.insertIfNew e.1 e.2) empty

@[simp] theorem entries_empty : (empty : SortedMap α β).entries = [] := rfl

@[simp] theorem entries_filter (p : α → β → Bool) (m : SortedMap α β) :
    (m.filter p).entries = m.entries.filter (fun e => p e.1 e.2) := rfl

@[simp] theorem entries_map (f : α → β → γ) (m : SortedMap α β) :
    (m.map f).entries = m.entries.map (fun e => (e.1, f e.1 e.2)) := rfl

@[simp] theorem keys_map (f : α → β → γ) (m : SortedMap α β) : (m.map f).keys = m.keys := by
  simp [keys, Function.comp_def]

@[simp] theorem get?_empty (k : α) : (empty : SortedMap α β).get? k = none := rfl

theorem contains_eq_isSome (m : SortedMap α β) (k : α) : m.contains k = (m.get? k).isSome := by
  simp [contains, get?]

section Lookup

variable [Std.TransOrd α]

private theorem find?_insertEntry (k a : α) (v : β) {l : List (α × β)}
    (h : l.Pairwise (fun a b => compare a.1 b.1 = .lt)) :
    (insertEntry k v l).find? (fun e => compare e.1 a == .eq) =
      if compare k a = .eq then
        some (((l.find? fun e => compare e.1 k == .eq).map (·.1)).getD k, v)
      else l.find? fun e => compare e.1 a == .eq := by
  induction l with
  | nil => by_cases hk : compare k a = .eq <;> simp [insertEntry, hk]
  | cons e rest ih =>
    obtain ⟨he, hr⟩ := List.pairwise_cons.1 h
    rw [insertEntry]
    split
    · rename_i hke
      have absent : (e :: rest).find? (fun e => compare e.1 k == .eq) = none := by
        apply List.find?_eq_none.2
        intro f hf
        have hkf : compare k f.1 = .lt := by
          rcases List.mem_cons.1 hf with rfl | hf
          · exact hke
          · exact Std.TransCmp.lt_trans hke (he f hf)
        simp [Std.OrientedCmp.gt_iff_lt.2 hkf]
      by_cases hk : compare k a = .eq
      · simp [hk, absent]
      · simp [hk]
    · rename_i hke
      have hek : compare e.1 k = .eq := Std.OrientedCmp.eq_symm hke
      have hka : compare k a = compare e.1 a := Std.TransCmp.congr_left hke
      by_cases hk : compare e.1 a = .eq
      · simp [hka, hk, hek]
      · have hf : (compare e.1 a == .eq) = false := by simpa using hk
        simp [hka, hk, hf]
    · rename_i hke
      have hek : compare e.1 k = .lt := Std.OrientedCmp.gt_iff_lt.1 hke
      by_cases hea : compare e.1 a = .eq
      · have hka : compare k a = .gt := Std.TransCmp.congr_right hea ▸ hke
        simp [hea, hka]
      · have hf : (compare e.1 a == .eq) = false := by simpa using hea
        simpa [List.find?_cons, hf, hek] using ih hr

/-- An insertion is seen under every spelling of its key, and a spelling that was there stays. -/
theorem entryAt?_insert (m : SortedMap α β) (k a : α) (v : β) :
    (m.insert k v).entryAt? a =
      if compare k a = .eq then some (((m.entryAt? k).map (·.1)).getD k, v) else m.entryAt? a :=
  find?_insertEntry k a v m.sorted

/-- What an insertion does to every look-up. -/
theorem get?_insert (m : SortedMap α β) (k a : α) (v : β) :
    (m.insert k v).get? a = if compare k a = .eq then some v else m.get? a := by
  rw [get?, entryAt?_insert]
  split <;> rfl

@[simp] theorem get?_insert_self (m : SortedMap α β) (k : α) (v : β) :
    (m.insert k v).get? k = some v := by simp [get?_insert]

theorem entryAt?_erase (m : SortedMap α β) (k a : α) :
    (m.erase k).entryAt? a = if compare a k = .eq then none else m.entryAt? a := by
  rw [entryAt?, erase, entries_filter, List.find?_filter]
  by_cases h : compare a k = .eq
  · rw [if_pos h, List.find?_eq_none.2 fun e _ => ?_]
    have : compare e.1 a = compare e.1 k := Std.TransCmp.congr_right h
    simp [this]
  · rw [if_neg h, entryAt?]
    refine congrArg (List.find? · _) (funext fun e => ?_)
    by_cases he : compare e.1 a = .eq
    · have : compare e.1 k = compare a k := Std.TransCmp.congr_left he
      simp [he, this, h]
    · have hf : (compare e.1 a == .eq) = false := by simpa using he
      simp [hf]

/-- What a removal does to every look-up. -/
theorem get?_erase (m : SortedMap α β) (k a : α) :
    (m.erase k).get? a = if compare a k = .eq then none else m.get? a := by
  rw [get?, entryAt?_erase]
  split <;> rfl

end Lookup

end SortedMap

/-- A finite set, listed in increasing order. -/
abbrev SortedSet (α : Type u) [Ord α] := SortedMap α Unit

namespace SortedSet

variable {α : Type u} [Ord α]

def toList (s : SortedSet α) : List α := SortedMap.keys s

variable [Std.TransOrd α]

def add (s : SortedSet α) (a : α) : SortedSet α := SortedMap.insert s a ()

/-- Of elements that compare equal the first one stays. -/
def ofList (l : List α) : SortedSet α := l.foldl add SortedMap.empty

end SortedSet

end WorkspaceSync
