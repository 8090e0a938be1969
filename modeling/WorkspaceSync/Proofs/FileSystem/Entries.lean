import WorkspaceSync.Proofs.FileSystem.Disk

/-!
# Paths to entries of directories

The path to an entry of a directory ends with the name of the entry, and so does the place where it
leads. Two paths that never go up and lead to the same place lead there on the same disks: each only
passes the directories above the place. A path that goes up passes others.
-/

namespace WorkspaceSync

open Text

namespace Disk

variable {d : Disk} {p q : FilePath} {name : String} {names dest steps : List String}

/-- What can only mean an entry of a directory. -/
def IsEntryName (name : String) : Prop :=
  name ≠ "" ∧ name ≠ "." ∧ name ≠ ".." ∧ '/' ∉ name.toList

instance (name : String) : Decidable (IsEntryName name) := inferInstanceAs (Decidable (_ ∧ _))

/-- What stands after the last separator is the last piece. -/
theorem exists_pieces_eq {sep : Char → Bool} {name : List Char} {c : Char} (hc : sep c = true)
    (plain : ∀ d ∈ name, sep d = false) (start : List Char) :
    ∃ first before, pieces sep (start ++ c :: name) = first :: before ++ [name] := by
  induction start with
  | nil =>
    refine ⟨[], [], ?_⟩
    rw [List.nil_append, pieces, if_pos hc, pieces_of_not_sep plain]
    rfl
  | cons d start ih =>
    obtain ⟨first, before, parts⟩ := ih
    rw [List.cons_append, pieces, parts]
    split
    · exact ⟨[], first :: before, rfl⟩
    · exact ⟨d :: first, before, rfl⟩

/-- The text of an entry's path is its name, or ends with the name after a separator. -/
theorem toList_push (p : FilePath) (name : String) :
    (p.push name).text.toList = name.toList ∨
      ∃ start, (p.push name).text.toList = start ++ '/' :: name.toList := by
  unfold FilePath.push
  split
  · exact .inl rfl
  · split
    · rename_i slash
      obtain ⟨start, whole⟩ := List.getLast?_eq_some_iff.1 slash
      refine .inr ⟨start, ?_⟩
      rw [String.toList_append, whole, List.append_assoc, List.singleton_append]
    · refine .inr ⟨p.text.toList, ?_⟩
      rw [String.toList_append, String.toList_append, List.append_assoc]
      rfl

theorem follow_append_eq_ok_iff {s t : List String} : follow names (s ++ t) = .ok dest ↔
    ∃ between, follow names s = .ok between ∧ follow between t = .ok dest := by
  induction s generalizing names with
  | nil =>
    refine ⟨fun h => ⟨names, rfl, h⟩, ?_⟩
    rintro ⟨_, ⟨⟩, h⟩
    exact h
  | cons step rest ih =>
    simp only [List.cons_append, follow_cons_eq_ok_iff, ih]
    constructor
    · rintro ⟨names', entered, between, first, second⟩
      exact ⟨between, ⟨names', entered, first⟩, second⟩
    · rintro ⟨between, ⟨names', entered, first⟩, second⟩
      exact ⟨names', entered, between, first, second⟩

/-- A step stays, goes up or goes down by one name. -/
theorem enter_cases {step : String} (h : enter names step = .ok dest) :
    step = "." ∧ dest = names ∨ step = ".." ∧ dest = names.dropLast ∨ dest = names ++ [step] := by
  unfold enter at h
  split_ifs at h with here up
  · exact .inl ⟨here, (Except.ok.inj h).symm⟩
  · exact .inr (.inl ⟨up, (Except.ok.inj h).symm⟩)
  · exact .inr (.inr (Except.ok.inj h).symm)

theorem steps_of_route {r : DiskRoute} (h : route p = .ok r) :
    r.steps = (split (· == '/') p.text).filter (· ≠ "") ∧
      r.trailing = decide (p.text.toList.getLast? = some '/') ∧ (r.start = [] ∨ r.start = home) := by
  unfold route at h
  split_ifs at h with _ _ _ absolute
  · rw [← Except.ok.inj h]
    exact ⟨rfl, rfl, .inl rfl⟩
  · rw [← Except.ok.inj h]
    exact ⟨rfl, rfl, .inr rfl⟩

/-- The last step to an entry of a directory is its name. -/
theorem exists_steps_eq (entry : IsEntryName name) {r : DiskRoute}
    (h : route (p.push name) = .ok r) :
    r.trailing = false ∧ ∃ before, r.steps = before ++ [name] := by
  have plain : ∀ d ∈ name.toList, (d == '/') = false := by
    intro d hd
    rw [beq_eq_false_iff_ne]
    rintro rfl
    exact entry.2.2.2 hd
  have kept : [name].filter (· ≠ "") = [name] := by
    rw [List.filter_singleton, decide_eq_true entry.1]
    rfl
  have closed : name.toList.getLast? ≠ some '/' :=
    fun slash => entry.2.2.2 (List.mem_of_getLast? slash)
  obtain ⟨steps, trailing, -⟩ := steps_of_route h
  rw [steps, trailing, split, decide_eq_false_iff_not]
  rcases toList_push p name with whole | ⟨start, whole⟩
  · rw [whole]
    refine ⟨closed, [], ?_⟩
    rw [pieces_of_not_sep plain, List.map_singleton, String.ofList_toList, kept]
    rfl
  · rw [whole]
    obtain ⟨first, before, parts⟩ := exists_pieces_eq (c := '/') (by decide) plain start
    constructor
    · cases last : name.toList with
      | nil => exact absurd (String.toList_eq_nil_iff.1 last) entry.1
      | cons c rest =>
        rw [last] at closed
        rwa [List.getLast?_append_cons, List.getLast?_cons_cons]
    · refine ⟨((first :: before).map String.ofList).filter (· ≠ ""), ?_⟩
      rw [parts, List.map_append, List.filter_append, List.map_singleton, String.ofList_toList,
        kept]

/-- The way to an entry of a directory is the way to the directory and one step. -/
theorem follow_eq_of_place_push (entry : IsEntryName name) (h : place (p.push name) = .ok names) :
    ∃ r before above, route (p.push name) = .ok r ∧ r.trailing = false ∧
      r.steps = before ++ [name] ∧ follow r.start before = .ok above ∧
      enter above name = .ok names ∧ names = above ++ [name] := by
  obtain ⟨r, taken_apart, h⟩ := place_eq_ok_iff.1 h
  obtain ⟨plain, before, steps⟩ := exists_steps_eq entry taken_apart
  rw [plain, if_neg Bool.false_ne_true, List.append_nil, steps] at h
  obtain ⟨above, way, h⟩ := follow_append_eq_ok_iff.1 h
  obtain ⟨names', entered, same⟩ := follow_cons_eq_ok_iff.1 h
  obtain rfl : names' = names := Except.ok.inj same
  refine ⟨r, before, above, taken_apart, plain, steps, way, entered, ?_⟩
  rcases enter_cases entered with ⟨here, -⟩ | ⟨up, -⟩ | down
  · exact absurd here entry.2.1
  · exact absurd up entry.2.2.1
  · exact down

/-- The place of an entry of a directory has its name. -/
theorem getLast?_place_push (entry : IsEntryName name) (h : place (p.push name) = .ok names) :
    names.getLast? = some name := by
  obtain ⟨-, -, above, -, -, -, -, -, rfl⟩ := follow_eq_of_place_push entry h
  exact List.getLast?_concat

/-! ## Ways that only go down -/

/-- All that names pass are directories. -/
def Rooted (d : Disk) (names : List String) : Prop :=
  ∀ k, k <+: names → k ≠ names → d.node? k = some .directory

theorem rooted_of_walk (rooted : d.Rooted names) (h : d.walk names steps = .ok dest) :
    d.Rooted dest := by
  induction steps generalizing names with
  | nil => exact Except.ok.inj h ▸ rooted
  | cons step rest ih =>
    obtain ⟨directory, names', entered, h⟩ := walk_cons_eq_ok_iff.1 h
    refine ih ?_ h
    rcases enter_cases entered with ⟨-, rfl⟩ | ⟨-, rfl⟩ | rfl
    · exact rooted
    · intro k hk shorter
      refine rooted k (hk.trans <| List.dropLast_prefix names) fun same => ?_
      refine shorter (hk.eq_of_length_le ?_)
      rw [same, List.length_dropLast]
      omega
    · intro k hk shorter
      rcases List.prefix_concat_iff.1 hk with whole | before
      · exact absurd whole shorter
      · by_cases same : k = names
        · rwa [same]
        · exact rooted k before same

theorem rooted_of_locate (h : d.locate p = .ok names) : d.Rooted names := by
  obtain ⟨r, taken_apart, h⟩ := locate_eq_ok_iff.1 h
  refine rooted_of_walk ?_ h
  intro k hk _
  obtain ⟨-, -, start | start⟩ := steps_of_route taken_apart
  · rw [start, List.prefix_nil] at hk
    rw [hk]
    rfl
  · rw [start] at hk
    exact if_pos (List.isPrefixOf_iff_prefix.2 hk)

/-- A path that never goes up. -/
def Straight (p : FilePath) : Prop := ".." ∉ split (· == '/') p.text

instance (p : FilePath) : Decidable (Straight p) := inferInstanceAs (Decidable (_ ∉ _))

theorem prefix_of_follow (down : ".." ∉ steps) (h : follow names steps = .ok dest) :
    names <+: dest := by
  induction steps generalizing names with
  | nil => exact Except.ok.inj h ▸ List.prefix_refl names
  | cons step rest ih =>
    rw [List.mem_cons, not_or] at down
    obtain ⟨names', entered, h⟩ := follow_cons_eq_ok_iff.1 h
    refine List.IsPrefix.trans ?_ (ih down.2 h)
    rcases enter_cases entered with ⟨-, rfl⟩ | ⟨up, -⟩ | rfl
    · exact List.prefix_refl names'
    · exact absurd up.symm down.1
    · exact List.prefix_append names [step]

/-- A way down passes only what leads to its end. -/
theorem walk_of_follow (down : ".." ∉ steps) (h : follow names steps = .ok dest)
    (directories : ∀ k, k <+: dest → d.node? k = some .directory) :
    d.walk names steps = .ok dest := by
  induction steps generalizing names with
  | nil => exact h
  | cons step rest ih =>
    have here := directories names (prefix_of_follow down h)
    obtain ⟨names', entered, h⟩ := follow_cons_eq_ok_iff.1 h
    exact walk_cons_eq_ok_iff.2
      ⟨here, names', entered, ih (fun up => down (List.mem_cons_of_mem step up)) h⟩

/-- Two spellings of one place that lead there on the same disks. -/
def SameWay (p q : FilePath) : Prop := p = q ∨ place p = place q ∧ Straight p ∧ Straight q

theorem SameWay.symm (same : SameWay p q) : SameWay q p := by
  rcases same with rfl | ⟨same, straight⟩
  · exact .inl rfl
  · exact .inr ⟨same.symm, straight.symm⟩

theorem SameWay.place_eq (same : SameWay p q) : place p = place q := by
  rcases same with rfl | ⟨same, -⟩
  · rfl
  · exact same

theorem SameWay.locate (entry : IsEntryName name) (same : SameWay p (q.push name))
    (h : d.locate p = .ok names) : d.locate (q.push name) = .ok names := by
  rcases same with rfl | ⟨same, -, straight⟩
  · exact h
  · rw [place_of_locate h] at same
    obtain ⟨r, before, above, taken_apart, plain, steps, way, entered, rfl⟩ :=
      follow_eq_of_place_push entry same.symm
    have down : ".." ∉ before := by
      intro up
      have step : ".." ∈ r.steps := by
        rw [steps]
        exact List.mem_append_left _ up
      rw [(steps_of_route taken_apart).1] at step
      exact straight (List.mem_of_mem_filter step)
    have directories : ∀ k, k <+: above → d.node? k = some .directory := by
      intro k hk
      refine rooted_of_locate h k (hk.trans (List.prefix_append _ _)) ?_
      rintro rfl
      have longer := hk.length_le
      rw [List.length_append, List.length_singleton] at longer
      omega
    refine locate_eq_ok_iff.2 ⟨r, taken_apart, ?_⟩
    rw [plain, if_neg Bool.false_ne_true, List.append_nil, steps]
    exact walk_append_eq_ok_iff.2 ⟨above, walk_of_follow down way directories,
      walk_singleton_eq_ok_iff.2 ⟨directories above (List.prefix_refl above), entered⟩⟩

end Disk

end WorkspaceSync
