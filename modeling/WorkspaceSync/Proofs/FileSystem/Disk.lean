import WorkspaceSync.FileSystem.Disk
import WorkspaceSync.Proofs.Except
import WorkspaceSync.Proofs.SortedMap

/-!
# What file operations leave alone

A path leads to the same place on every disk on which it leads anywhere. What is read there changes
only by writing, renaming and removing files at that place, or by taking away a directory on the way;
making directories only opens ways, among them some that a path was lacking.
-/

namespace WorkspaceSync

open Text

namespace Disk

variable {d d' : Disk} {p : FilePath} {names dest steps : List String}

/-- The content of the file that names lead to. -/
def fileAt? (d : Disk) (names : List String) : Option Bytes :=
  match d.node? names with
  | some (.file content _) => some content
  | _ => none

/-- What can be read at a path. -/
def content? (d : Disk) (p : FilePath) : Option Bytes := (d.read p).toOption

/-- Takes steps as if there were directories all the way. -/
def follow : (names steps : List String) → Except IoError (List String)
  | names, [] => .ok names
  | names, step :: rest =>
    match enter names step with
    | .error e => .error e
    | .ok names' => follow names' rest

/-- Where a path leads, on any disk on which it leads somewhere. -/
def place (p : FilePath) : Except IoError (List String) := do
  let r ← route p
  follow r.start (r.steps ++ if r.trailing then ["."] else [])

/-! ## Ways -/

theorem follow_cons_eq_ok_iff {step : String} {rest : List String} :
    follow names (step :: rest) = .ok dest ↔
      ∃ names', enter names step = .ok names' ∧ follow names' rest = .ok dest := by
  rw [follow]
  cases enter names step with
  | error e =>
    refine ⟨nofun, ?_⟩
    rintro ⟨_, ⟨⟩, _⟩
  | ok names' =>
    refine ⟨fun h => ⟨names', rfl, h⟩, ?_⟩
    rintro ⟨_, ⟨⟩, h⟩
    exact h

theorem walk_cons_eq_ok_iff {step : String} {rest : List String} :
    d.walk names (step :: rest) = .ok dest ↔ d.node? names = some .directory ∧
      ∃ names', enter names step = .ok names' ∧ d.walk names' rest = .ok dest := by
  rw [walk]
  cases d.node? names with
  | none => exact ⟨nofun, nofun⟩
  | some n =>
    cases n with
    | file content modified => exact ⟨nofun, nofun⟩
    | directory =>
      dsimp only
      cases enter names step with
      | error e =>
        refine ⟨nofun, ?_⟩
        rintro ⟨_, _, ⟨⟩, _⟩
      | ok names' =>
        refine ⟨fun h => ⟨rfl, names', rfl, h⟩, ?_⟩
        rintro ⟨-, _, ⟨⟩, h⟩
        exact h

theorem walk_append_eq_ok_iff {s t : List String} : d.walk names (s ++ t) = .ok dest ↔
    ∃ between, d.walk names s = .ok between ∧ d.walk between t = .ok dest := by
  induction s generalizing names with
  | nil =>
    refine ⟨fun h => ⟨names, rfl, h⟩, ?_⟩
    rintro ⟨_, ⟨⟩, h⟩
    exact h
  | cons step rest ih =>
    simp only [List.cons_append, walk_cons_eq_ok_iff, ih]
    constructor
    · rintro ⟨directory, names', entered, between, first, second⟩
      exact ⟨between, ⟨directory, names', entered, first⟩, second⟩
    · rintro ⟨between, ⟨directory, names', entered, first⟩, second⟩
      exact ⟨directory, names', entered, between, first, second⟩

theorem walk_singleton_eq_ok_iff {step : String} : d.walk names [step] = .ok dest ↔
    d.node? names = some .directory ∧ enter names step = .ok dest := by
  rw [walk_cons_eq_ok_iff]
  refine and_congr_right fun _ => ⟨?_, fun entered => ⟨dest, entered, rfl⟩⟩
  rintro ⟨_, entered, ⟨⟩⟩
  exact entered

theorem follow_of_walk (h : d.walk names steps = .ok dest) : follow names steps = .ok dest := by
  induction steps generalizing names with
  | nil => exact h
  | cons step rest ih =>
    obtain ⟨-, names', entered, h⟩ := walk_cons_eq_ok_iff.1 h
    exact follow_cons_eq_ok_iff.2 ⟨names', entered, ih h⟩

theorem locate_eq_ok_iff : d.locate p = .ok names ↔ ∃ r, route p = .ok r ∧
    d.walk r.start (r.steps ++ if r.trailing then ["."] else []) = .ok names :=
  bind_eq_ok_iff

theorem place_eq_ok_iff : place p = .ok names ↔ ∃ r, route p = .ok r ∧
    follow r.start (r.steps ++ if r.trailing then ["."] else []) = .ok names :=
  bind_eq_ok_iff

theorem place_of_locate (h : d.locate p = .ok names) : place p = .ok names := by
  obtain ⟨r, taken_apart, h⟩ := locate_eq_ok_iff.1 h
  exact place_eq_ok_iff.2 ⟨r, taken_apart, follow_of_walk h⟩

/-- Every directory of the one disk is one of the other. -/
def KeepsDirectories (d d' : Disk) : Prop :=
  ∀ names, d.node? names = some .directory → d'.node? names = some .directory

theorem KeepsDirectories.walk (kept : d.KeepsDirectories d') (h : d.walk names steps = .ok dest) :
    d'.walk names steps = .ok dest := by
  induction steps generalizing names with
  | nil => exact h
  | cons step rest ih =>
    obtain ⟨directory, names', entered, h⟩ := walk_cons_eq_ok_iff.1 h
    exact walk_cons_eq_ok_iff.2 ⟨kept names directory, names', entered, ih h⟩

theorem KeepsDirectories.locate (kept : d.KeepsDirectories d') (h : d.locate p = .ok names) :
    d'.locate p = .ok names := by
  obtain ⟨r, taken_apart, h⟩ := locate_eq_ok_iff.1 h
  exact locate_eq_ok_iff.2 ⟨r, taken_apart, kept.walk h⟩

/-! ## Nodes -/

theorem node?_put {n : DiskNode} (below : names.isPrefixOf home = false) (k : List String) :
    (d.put names n).node? k = if names = k then some n else d.node? k := by
  unfold node?
  by_cases h : k.isPrefixOf home = true
  · rw [if_pos h, if_pos h, if_neg]
    rintro rfl
    rw [below] at h
    cases h
  · rw [if_neg h, if_neg h]
    exact SortedMap.get?_insert_eq ..

theorem node?_erase (below : names.isPrefixOf home = false) (k : List String) :
    (Disk.mk (d.nodes.erase names)).node? k = if names = k then none else d.node? k := by
  unfold node?
  by_cases h : k.isPrefixOf home = true
  · rw [if_pos h, if_pos h, if_neg]
    rintro rfl
    rw [below] at h
    cases h
  · rw [if_neg h, if_neg h]
    exact (SortedMap.get?_erase_eq ..).trans (if_congr eq_comm rfl rfl)

/-- What is no directory has names of its own. -/
theorem not_isPrefixOf_home (free : d.node? names ≠ some .directory) :
    names.isPrefixOf home = false := by
  rw [← Bool.not_eq_true]
  intro h
  exact free (if_pos h)

theorem fileAt?_put_file {content : Bytes} {modified : Int}
    (free : d.node? names ≠ some .directory) (k : List String) :
    (d.put names (.file content modified)).fileAt? k =
      if names = k then some content else d.fileAt? k := by
  unfold fileAt?
  rw [node?_put (not_isPrefixOf_home free)]
  by_cases h : names = k
  · rw [if_pos h, if_pos h]
  · rw [if_neg h, if_neg h]

theorem fileAt?_erase (free : d.node? names ≠ some .directory) (k : List String) :
    (Disk.mk (d.nodes.erase names)).fileAt? k = if names = k then none else d.fileAt? k := by
  unfold fileAt?
  rw [node?_erase (not_isPrefixOf_home free)]
  by_cases h : names = k
  · rw [if_pos h, if_pos h]
  · rw [if_neg h, if_neg h]

theorem keepsDirectories_put {n : DiskNode} (free : d.node? names ≠ some .directory) :
    d.KeepsDirectories (d.put names n) := by
  intro k directory
  rw [node?_put (not_isPrefixOf_home free), if_neg, directory]
  rintro rfl
  exact free directory

theorem keepsDirectories_erase (free : d.node? names ≠ some .directory) :
    d.KeepsDirectories ⟨d.nodes.erase names⟩ := by
  intro k directory
  rw [node?_erase (not_isPrefixOf_home free), if_neg, directory]
  rintro rfl
  exact free directory

/-! ## Reading -/

theorem content?_of_locate (h : d.locate p = .ok names) : d.content? p = d.fileAt? names := by
  unfold content? read find fileAt?
  rw [h]
  dsimp only
  cases d.node? names with
  | none => rfl
  | some n => cases n <;> rfl

theorem content?_of_locate_error {e : IoError} (h : d.locate p = .error e) :
    d.content? p = none := by
  unfold content? read find
  rw [h]
  rfl

/-- A file where the path leads can be reached by the path. It cannot where a directory is missing
that the path only passes through, as in `a/../b`. -/
def Settled (d : Disk) (p : FilePath) : Prop :=
  ∀ names, place p = .ok names → (d.fileAt? names).isSome → d.locate p = .ok names

theorem Settled.content?_eq (settled : d.Settled p) :
    d.content? p = (place p).toOption.bind d.fileAt? := by
  cases located : d.locate p with
  | ok names =>
    rw [content?_of_locate located, place_of_locate located]
    rfl
  | error e =>
    rw [content?_of_locate_error located]
    cases placed : place p with
    | error e => rfl
    | ok names =>
      cases file : d.fileAt? names with
      | none => exact file.symm
      | some content =>
        have reached := settled names placed (by rw [file]; rfl)
        rw [located] at reached
        cases reached

/-- Where there is no file, none is read. -/
theorem settled_of_nothing (nothing : ∀ names, place p = .ok names → d.fileAt? names = none) :
    d.content? p = none ∧ d.Settled p := by
  have settled : d.Settled p := by
    intro names placed file
    rw [nothing names placed] at file
    cases file
  refine ⟨?_, settled⟩
  rw [settled.content?_eq]
  cases placed : place p with
  | error e => rfl
  | ok names => exact nothing names placed

/-- Whatever happened to a disk, a path leads to the same file as before, and not by fewer ways. -/
structure Spares (p : FilePath) (d d' : Disk) : Prop where
  locate : ∀ names, d.locate p = .ok names → d'.locate p = .ok names
  file : ∀ names, place p = .ok names → d'.fileAt? names = d.fileAt? names

theorem Spares.refl (p : FilePath) (d : Disk) : Spares p d d :=
  ⟨fun _ h => h, fun _ _ => rfl⟩

theorem Spares.trans {d'' : Disk} (first : Spares p d d') (second : Spares p d' d'') :
    Spares p d d'' where
  locate names h := second.locate names (first.locate names h)
  file names h := (second.file names h).trans (first.file names h)

theorem Spares.settled (spares : Spares p d d') (settled : d.Settled p) : d'.Settled p := by
  intro names placed file
  rw [spares.file names placed] at file
  exact spares.locate names (settled names placed file)

theorem Spares.content?_eq (spares : Spares p d d') (settled : d.Settled p) :
    d'.content? p = d.content? p := by
  rw [(spares.settled settled).content?_eq, settled.content?_eq]
  cases placed : place p with
  | error e => rfl
  | ok names => exact spares.file names placed

/-! ## Making directories -/

/-- A disk that has got new directories. -/
structure Grows (d d' : Disk) : Prop where
  directories : d.KeepsDirectories d'
  files : ∀ names, d'.fileAt? names = d.fileAt? names

theorem Grows.refl (d : Disk) : d.Grows d := ⟨fun _ h => h, fun _ => rfl⟩

theorem Grows.trans {d'' : Disk} (first : d.Grows d') (second : d'.Grows d'') : d.Grows d'' where
  directories names h := second.directories names (first.directories names h)
  files names := (second.files names).trans (first.files names)

theorem Grows.spares (grows : d.Grows d') (p : FilePath) : Spares p d d' where
  locate _ h := grows.directories.locate h
  file names _ := grows.files names

/-- The way to what a route makes is the route. -/
theorem walk_of_newEntry {taken : IoError} {r : DiskRoute} (h : d.newEntry taken r = .ok names) :
    d.walk r.start r.steps = .ok names := by
  obtain ⟨⟨above, last⟩, found, h⟩ := bind_eq_ok_iff.1 h
  obtain ⟨above', walked, same⟩ := bind_eq_ok_iff.1 found
  obtain ⟨rfl, ends⟩ := Prod.mk.inj (Except.ok.inj same)
  cases last with
  | none => cases h
  | some step =>
    dsimp only at h
    split at h
    · cases h
    · obtain ⟨steps, whole⟩ := List.getLast?_eq_some_iff.1 ends
      rw [whole, List.dropLast_concat] at walked
      obtain ⟨between, before, here⟩ := walk_append_eq_ok_iff.1 walked
      obtain ⟨directory, same⟩ := walk_singleton_eq_ok_iff.1 here
      obtain rfl : between = above' := Except.ok.inj same
      rw [whole]
      exact walk_append_eq_ok_iff.2 ⟨between, before, walk_singleton_eq_ok_iff.2 ⟨directory, h⟩⟩

theorem grows_of_makeDirectory {r : DiskRoute} (h : d.makeDirectory r = .ok d') : d.Grows d' := by
  obtain ⟨names, -, h⟩ := bind_eq_ok_iff.1 h
  split at h
  · cases h
  · rename_i free
    obtain rfl := Except.ok.inj h
    have nothing : d.node? names ≠ some .directory := by
      rw [free]
      exact nofun
    refine ⟨keepsDirectories_put nothing, fun k => ?_⟩
    unfold fileAt?
    rw [node?_put (not_isPrefixOf_home nothing)]
    by_cases same : names = k
    · rw [if_pos same, ← same, free]
    · rw [if_neg same]

theorem grows_of_ensureDirectory {r : DiskRoute} (h : d.ensureDirectory r = .ok d') :
    d.Grows d' := by
  unfold ensureDirectory at h
  cases made : d.makeDirectory r with
  | ok d'' =>
    rw [made] at h
    obtain rfl := Except.ok.inj h
    exact grows_of_makeDirectory made
  | error e =>
    rw [made] at h
    dsimp only at h
    split at h
    · obtain rfl := Except.ok.inj h
      exact .refl d
    · cases h

/-- An attempt makes a change or leaves the disk as it is. -/
theorem attempt_cases (f : Disk → Except IoError Disk) (d : Disk) :
    ((attempt f d).1 = .ok () ∧ f d = .ok (attempt f d).2) ∨
      ∃ e, (attempt f d).1 = .error e ∧ f d = .error e ∧ (attempt f d).2 = d := by
  unfold attempt
  cases h : f d with
  | ok d' => exact .inl ⟨rfl, rfl⟩
  | error e => exact .inr ⟨e, rfl, rfl, rfl⟩

/-- What holds of a change that succeeds and of no change holds of an attempt. -/
theorem attempt_induction {R : Disk → Disk → Prop} {f : Disk → Except IoError Disk}
    (refl : ∀ d, R d d) (step : ∀ {d d'}, f d = .ok d' → R d d') (d : Disk) :
    R d (attempt f d).2 := by
  rcases attempt_cases f d with ⟨-, changed⟩ | ⟨e, -, -, same⟩
  · exact step changed
  · rw [same]
    exact refl d

/-- Changes that only make directories. -/
def Growing {α : Type} (x : StateM Disk α) : Prop := ∀ d : Disk, d.Grows (x d).2

theorem Growing.pure {α : Type} (a : α) : Growing (Pure.pure a : StateM Disk α) := Grows.refl

theorem Growing.bind {α β : Type} {x : StateM Disk α} {f : α → StateM Disk β} (hx : Growing x)
    (hf : ∀ a, Growing (f a)) : Growing (x >>= f) :=
  fun d => (hx d).trans (hf (x d).1 (x d).2)

theorem growing_ensureAll (rs : List DiskRoute) : Growing (ensureAll rs) := by
  have one : ∀ r : DiskRoute, Growing (attempt (·.ensureDirectory r)) :=
    fun r => attempt_induction Grows.refl fun h => grows_of_ensureDirectory h
  induction rs with
  | nil => exact .pure _
  | cons r above ih =>
    refine (one r).bind fun first => ?_
    split
    · refine ih.bind fun rest => ?_
      split
      · exact one r
      · exact .pure _
    · exact .pure _

theorem growing_createDirectories (p : FilePath) : Growing (createDirectories p) := by
  unfold createDirectories
  split
  · exact .pure _
  · exact .pure _
  · exact .pure _
  · exact growing_ensureAll _

/-! ## Writing, renaming and removing files -/

theorem write_eq_ok {content : Bytes} {modified : Int}
    (h : d.write p content modified = .ok d') :
    ∃ names, d.locate p = .ok names ∧ d.node? names ≠ some .directory ∧
      d' = d.put names (.file content modified) := by
  obtain ⟨r, taken_apart, h⟩ := bind_eq_ok_iff.1 h
  obtain ⟨names, entry, h⟩ := bind_eq_ok_iff.1 h
  have located : r.trailing = false → d.locate p = .ok names := by
    intro plain
    refine locate_eq_ok_iff.2 ⟨r, taken_apart, ?_⟩
    rw [plain, if_neg Bool.false_ne_true, List.append_nil]
    exact walk_of_newEntry entry
  dsimp only at h
  split at h
  · cases h
  · rename_i plain
    split at h
    · cases h
    · rename_i free
      exact ⟨names, located (by simpa using plain), free, (Except.ok.inj h).symm⟩

theorem rename_eq_ok {source target : FilePath} (h : d.rename source target = .ok d') :
    ∃ old content modified new, d.locate source = .ok old ∧
      d.node? old = some (.file content modified) ∧ d.locate target = .ok new ∧
      d.node? new ≠ some .directory ∧
      d' = if new = old then d.put new (.file content modified)
        else ⟨(d.put new (.file content modified)).nodes.erase old⟩ := by
  obtain ⟨old, located, h⟩ := bind_eq_ok_iff.1 h
  split at h
  · rename_i content modified file
    obtain ⟨d'', written, h⟩ := bind_eq_ok_iff.1 h
    obtain ⟨new, located', free, rfl⟩ := write_eq_ok written
    refine ⟨old, content, modified, new, located, file, located', free, ?_⟩
    rw [← Except.ok.inj h, located']
    simp only [Except.toOption, Option.some.injEq]
  · cases h
  · cases h

theorem removeFile_eq_ok (h : d.removeFile p = .ok d') :
    ∃ names, d.locate p = .ok names ∧ d.node? names ≠ some .directory ∧
      d' = ⟨d.nodes.erase names⟩ := by
  obtain ⟨names, located, h⟩ := bind_eq_ok_iff.1 h
  split at h
  · rename_i file
    refine ⟨names, located, ?_, (Except.ok.inj h).symm⟩
    rw [file]
    exact nofun
  · cases h
  · cases h

theorem spares_of_write {q : FilePath} {content : Bytes} {modified : Int}
    (h : d.write q content modified = .ok d')
    (apart : ∀ names, place q = .ok names → place p ≠ .ok names) : Spares p d d' := by
  obtain ⟨names, located, free, rfl⟩ := write_eq_ok h
  refine ⟨fun k hk => (keepsDirectories_put free).locate hk, fun k hk => ?_⟩
  rw [fileAt?_put_file free, if_neg]
  rintro rfl
  exact apart names (place_of_locate located) hk

theorem content?_of_write {content : Bytes} {modified : Int}
    (h : d.write p content modified = .ok d') : d'.content? p = some content := by
  obtain ⟨names, located, free, rfl⟩ := write_eq_ok h
  rw [content?_of_locate ((keepsDirectories_put free).locate located), fileAt?_put_file free,
    if_pos rfl]

/-- A file that was renamed is where it was to go, with the content that it had. -/
theorem content?_of_rename {source target : FilePath} (h : d.rename source target = .ok d')
    (apart : ∀ names, place source = .ok names → place target ≠ .ok names) :
    d'.content? target = d.content? source ∧ d'.Settled target := by
  obtain ⟨old, content, modified, new, located, file, located', free, rfl⟩ := rename_eq_ok h
  have moved : new ≠ old := by
    rintro rfl
    exact apart new (place_of_locate located) (place_of_locate located')
  have old_file : (d.put new (.file content modified)).node? old ≠ some .directory := by
    rw [node?_put (not_isPrefixOf_home free), if_neg moved, file]
    exact nofun
  have kept := (keepsDirectories_put (n := .file content modified) free).locate located'
  have reached := (keepsDirectories_erase old_file).locate kept
  rw [if_neg moved]
  constructor
  · rw [content?_of_locate reached, fileAt?_erase old_file, if_neg moved.symm,
      fileAt?_put_file free, if_pos rfl, content?_of_locate located, fileAt?, file]
  · intro names placed _
    obtain rfl := Except.ok.inj ((place_of_locate located').symm.trans placed)
    exact reached

/-- A file that was removed is not there. -/
theorem content?_of_removeFile (h : d.removeFile p = .ok d') :
    d'.content? p = none ∧ d'.Settled p := by
  obtain ⟨names, located, free, rfl⟩ := removeFile_eq_ok h
  refine settled_of_nothing fun k placed => ?_
  obtain rfl := Except.ok.inj ((place_of_locate located).symm.trans placed)
  rw [fileAt?_erase free, if_pos rfl]

/-- What cannot be removed is no file that can be read. -/
theorem content?_of_removeFile_error {e : IoError} (h : d.removeFile p = .error e) :
    d.content? p = none := by
  cases located : d.locate p with
  | error e => exact content?_of_locate_error located
  | ok names =>
    rw [content?_of_locate located]
    unfold removeFile at h
    rw [located] at h
    simp only [bind, Except.bind] at h
    unfold fileAt?
    split at h
    · cases h
    · rename_i directory
      rw [directory]
    · rename_i nothing
      rw [nothing]

end Disk

end WorkspaceSync
