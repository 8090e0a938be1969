import Mathlib.Data.List.DropRight
import WorkspaceSync.Library
import WorkspaceSync.Proofs.FilePath

/-!
# Artifacts below their roots

A location is resolved by pushing one name after another onto its root. Names that are not `..` lead
further down, and those of a valid location are not: `..` between any two separators is refused, so
also between two slashes. A generated file is resolved by its execution path alone, which is what
identifies a library.
-/

namespace WorkspaceSync

open Text

namespace FilePath

variable {base p q : FilePath} {name : String}

/-- A path goes on from a directory without going up or back to the root of all files. -/
def StaysWithin (base p : FilePath) : Prop :=
  base.Encloses p ∧
    ∀ c ∈ p.components.drop base.components.length, c ≠ .root ∧ c ≠ .parent

instance (base p : FilePath) : Decidable (StaysWithin base p) :=
  inferInstanceAs (Decidable (_ ∧ _))

theorem staysWithin_iff : base.StaysWithin p ↔
    ∃ rest, p.components = base.components ++ rest ∧ ∀ c ∈ rest, c ≠ .root ∧ c ≠ .parent := by
  constructor
  · rintro ⟨⟨rest, whole⟩, inside⟩
    rw [← whole, List.drop_left] at inside
    exact ⟨rest, whole.symm, inside⟩
  · rintro ⟨rest, whole, inside⟩
    refine ⟨⟨rest, whole.symm⟩, ?_⟩
    rwa [whole, List.drop_left]

theorem StaysWithin.refl (p : FilePath) : p.StaysWithin p :=
  staysWithin_iff.2 ⟨[], by simp⟩

theorem StaysWithin.trans (h : base.StaysWithin p) (h' : p.StaysWithin q) :
    base.StaysWithin q := by
  obtain ⟨rest, whole, inside⟩ := staysWithin_iff.1 h
  obtain ⟨rest', whole', inside'⟩ := staysWithin_iff.1 h'
  apply staysWithin_iff.2
  refine ⟨rest ++ rest', by rw [whole', whole, List.append_assoc], ?_⟩
  intro c mem
  exact (List.mem_append.1 mem).elim (inside c) (inside' c)

/-! ## Going down -/

theorem ofName_ne (up : name ≠ "..") : ofName name ≠ .root ∧ ofName name ≠ .parent := by
  rw [ofName, if_neg up]
  simp

theorem of_mem_added {s : String} {c : Component} (up : ".." ∉ steps s) (mem : c ∈ added s) :
    c ≠ .root ∧ c ≠ .parent := by
  obtain ⟨t, step, rfl⟩ := List.mem_map.1 mem
  apply ofName_ne
  rintro rfl
  exact up (List.mem_of_mem_filter step)

/-- One name leads down, also from the empty path. -/
theorem staysWithin_push (plain : '/' ∉ name.toList) (ne : name ≠ "") (up : name ≠ "..") :
    p.StaysWithin (p.push name) := by
  have step : ".." ∉ steps name := by
    rw [steps_of_notMem plain ne, List.mem_singleton]
    exact Ne.symm up
  by_cases empty : p.text = ""
  · -- The pushed name is the whole path then, and may be a leading dot.
    have start : p.components = [] := by
      rw [components_eq, lead, empty]
      rfl
    have first : name.toList.head? ≠ some '/' :=
      fun slash => plain (List.mem_of_head? slash)
    rw [staysWithin_iff, push, if_pos empty, start]
    refine ⟨components ⟨name⟩, rfl, ?_⟩
    intro c mem
    rw [components_eq, List.mem_append] at mem
    rcases mem with leading | following
    · rw [lead, if_neg first] at leading
      split_ifs at leading
      · rw [List.mem_singleton.1 leading]
        simp
      · cases leading
    · exact of_mem_added step following
  · exact staysWithin_iff.2 ⟨_, components_push empty, fun c mem => of_mem_added step mem⟩

/-- Names lead down one after another. -/
theorem staysWithin_foldl_push {names : List String}
    (plain : ∀ s ∈ names, s ≠ "" ∧ '/' ∉ s.toList) (up : ".." ∉ names) :
    p.StaysWithin (names.foldl push p) := by
  induction names generalizing p with
  | nil => exact StaysWithin.refl p
  | cons name names ih =>
    obtain ⟨ne, slash⟩ := plain name List.mem_cons_self
    rw [List.mem_cons, not_or] at up
    have first : p.StaysWithin (p.push name) := staysWithin_push slash ne (Ne.symm up.1)
    apply first.trans
    exact ih (fun s mem => plain s (List.mem_cons_of_mem name mem)) up.2

/-! ## Slashes at the end -/

theorem steps_append_slashes (s : String) (n : Nat) :
    steps (s ++ String.ofList (List.replicate n '/')) = steps s := by
  induction n with
  | zero => rw [List.replicate_zero, String.ofList_nil, String.append_empty]
  | succ n ih =>
    have last : s ++ String.ofList (List.replicate (n + 1) '/') =
        s ++ String.ofList (List.replicate n '/') ++ "/" ++ "" := by
      rw [← String.toList_inj]
      simp [List.replicate_succ']
    have nothing : steps "" = [] := rfl
    rw [last, steps_append_slash, ih, nothing, List.append_nil]

theorem steps_rdropWhile (s : String) :
    steps (String.ofList (s.toList.rdropWhile (· == '/'))) = steps s := by
  obtain ⟨n, slashes⟩ : ∃ n, s.toList.rtakeWhile (· == '/') = List.replicate n '/' :=
    ⟨_, List.eq_replicate_of_mem fun c mem => by simpa using List.mem_rtakeWhile_imp mem⟩
  have whole : String.ofList (s.toList.rdropWhile (· == '/')) ++
      String.ofList (List.replicate n '/') = s := by
    rw [← slashes, ← String.ofList_append, List.rdropWhile_append_rtakeWhile,
      String.ofList_toList]
  rw [← steps_append_slashes _ n, whole]

end FilePath

open FilePath (steps StaysWithin)

/-! ## Valid locations -/

namespace ArtifactLocation

variable {a : ArtifactLocation} {part : String}

theorem validatePart_eq_ok_iff : validatePart part = .ok () ↔
    isAbsolute part = false ∧ ".." ∉ split isSeparator part := by
  unfold validatePart
  split_ifs with absolute up
  · simp [absolute]
  · simp [up]
  · simp [absolute, up]

theorem validate_eq_ok_iff : a.validate = .ok () ↔
    a.relativePath ≠ "" ∧ validatePart a.rootFragment = .ok () ∧
      validatePart a.relativePath = .ok () := by
  unfold validate
  by_cases empty : a.relativePath = ""
  · rw [if_pos empty]
    exact ⟨nofun, fun h => absurd empty h.1⟩
  · rw [if_neg empty]
    refine bind_eq_ok_iff.trans ⟨?_, ?_⟩
    · rintro ⟨⟨⟩, fragment, path⟩
      exact ⟨empty, fragment, path⟩
    · rintro ⟨-, fragment, path⟩
      exact ⟨(), fragment, path⟩

/-- What is no piece at separators of both kinds is none at slashes. -/
theorem notMem_steps_of_validatePart (h : validatePart part = .ok ()) : ".." ∉ steps part := by
  intro up
  exact (validatePart_eq_ok_iff.1 h).2 (FilePath.up_mem_split up)

theorem steps_joinFragments (s t : String) : steps (joinFragments s t) = steps s ++ steps t := by
  unfold joinFragments
  split_ifs with left right
  · rw [left]
    rfl
  · rw [right]
    exact (List.append_nil _).symm
  · have joined : String.ofList (s.toList.rdropWhile (· == '/') ++ '/' :: t.toList) =
        String.ofList (s.toList.rdropWhile (· == '/')) ++ "/" ++ t := by
      rw [← String.toList_inj]
      simp
    refine (congrArg steps joined).trans ?_
    rw [FilePath.steps_append_slash, FilePath.steps_rdropWhile]

end ArtifactLocation

namespace Roots

variable {roots : Roots} {a : ArtifactLocation} {base : FilePath} {path : String}

theorem staysWithin_descend (inside : ".." ∉ steps path) :
    base.StaysWithin (descend base path) :=
  FilePath.staysWithin_foldl_push (fun _ => FilePath.of_mem_steps) inside

/-- Two descents are one descent by the joined path. -/
theorem descend_descend (base : FilePath) (s t : String) :
    descend (descend base s) t = descend base (ArtifactLocation.joinFragments s t) := by
  have steps := ArtifactLocation.steps_joinFragments s t
  unfold FilePath.steps at steps
  rw [descend, descend, descend, steps, List.foldl_append]

theorem resolve_source (source : a.isSource = true) : roots.resolve a =
    descend (if a.isExternal then roots.outputBase else roots.workspace.directory)
      a.relativePath := by
  rw [resolve, if_pos source]

/-- A generated file is known by its execution path. -/
theorem resolve_generated (generated : a.isSource = false) :
    roots.resolve a = descend roots.execution a.executionPath := by
  rw [resolve, if_neg (by simp [generated]), descend_descend]
  rfl

/-- A valid location is below the workspace, the output base or the execution root, by what it is,
and generated files of one library key are one file whatever the roots are. -/
theorem resolve_staysWithin (roots : Roots) (a b : ArtifactLocation)
    (valid : a.validate = .ok ()) :
    (a.isSource = true → a.isExternal = false →
      roots.workspace.directory.StaysWithin (roots.resolve a)) ∧
    (a.isSource = true → a.isExternal = true →
      roots.outputBase.StaysWithin (roots.resolve a)) ∧
    (a.isSource = false → roots.execution.StaysWithin (roots.resolve a)) ∧
    (a.isSource = false → b.isSource = false → LibraryKey.ofJar a = .ofJar b →
      roots.resolve a = roots.resolve b) := by
  obtain ⟨-, fragment, path⟩ := ArtifactLocation.validate_eq_ok_iff.1 valid
  replace fragment := ArtifactLocation.notMem_steps_of_validatePart fragment
  replace path := ArtifactLocation.notMem_steps_of_validatePart path
  refine ⟨?workspace, ?external, ?generated, ?key⟩
  case workspace =>
    intro source inside
    rw [resolve_source source, if_neg (by simp [inside])]
    exact staysWithin_descend path
  case external =>
    intro source external
    rw [resolve_source source, if_pos external]
    exact staysWithin_descend path
  case generated =>
    intro generated
    rw [resolve_generated generated]
    apply staysWithin_descend
    rw [ArtifactLocation.executionPath, ArtifactLocation.steps_joinFragments, List.mem_append,
      not_or]
    exact ⟨fragment, path⟩
  case key =>
    intro generated generated' same
    have paths : a.executionPath = b.executionPath := LibraryKey.mk.inj same
    rw [resolve_generated generated, resolve_generated generated', paths]

/-- Roots of which the execution root is empty, so that a leading dot is a component. -/
def bareRoots : Roots := ⟨⟨⟨"/w"⟩⟩, ⟨""⟩, ⟨"/b/."⟩⟩

theorem three_locations_stayWithin :
    bareRoots.workspace.directory.StaysWithin (bareRoots.resolve (.source "./java//A.java")) ∧
    bareRoots.outputBase.StaysWithin (bareRoots.resolve (.source "external/...\\a/b.jar")) ∧
    bareRoots.execution.StaysWithin (bareRoots.resolve (.generated "./bin/" "java/lib.jar")) ∧
    bareRoots.resolve (.generated "./bin/" "java/lib.jar") =
      bareRoots.resolve (.generated "./bin/java" "lib.jar") := by
  obtain ⟨workspace, -⟩ := resolve_staysWithin bareRoots (.source "./java//A.java") (.source "")
    (by decide)
  obtain ⟨-, external, -⟩ := resolve_staysWithin bareRoots (.source "external/...\\a/b.jar")
    (.source "") (by decide)
  obtain ⟨-, -, generated, key⟩ := resolve_staysWithin bareRoots
    (.generated "./bin/" "java/lib.jar") (.generated "./bin/java" "lib.jar") (by decide)
  exact ⟨workspace rfl (by decide), external rfl (by decide), generated rfl,
    key rfl rfl (by decide)⟩

end Roots

end WorkspaceSync
