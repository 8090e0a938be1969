import WorkspaceSync.Label
import WorkspaceSync.Library

/-!
# Keys are known by their texts

The three parts of a label can be read back from its text, so labels with one text are one label and
the order of labels separates them. A library key is its text.
-/

namespace WorkspaceSync

open Text

namespace Label

/-- What a label's text has after the first `//`. -/
def body (l : Label) : List Char := l.package.toList ++ ':' :: l.name.toList

/-- The text that has something after the `//` of a label. -/
def rooted (l : Label) (body : List Char) : List Char :=
  match l.repository with
  | none => '/' :: '/' :: body
  | some r => '@' :: (r.toList ++ '/' :: '/' :: body)

/-- The spelling without a name, for a target that is named like the last directory of its package:
`//a/b` for `//a/b:b`. -/
def shorthand (l : Label) : String := String.ofList (l.rooted l.package.toList)

theorem toList_text (l : Label) : l.text.toList = l.rooted l.body := by
  cases hr : l.repository with
  | none => simp [text, hr, rooted, body]
  | some r => simp [text, hr, rooted, body]

theorem splitRoot_rooted (l : Label) (body : List Char) :
    splitRoot (l.rooted body) = some (l.repository.map String.toList, body) := by
  unfold rooted
  cases hr : l.repository with
  | none => rfl
  | some r =>
    have cut := cutAtRoot_append_root (l.repository_valid r hr).2 body
    simp [splitRoot, cut]

theorem splitRoot_text (l : Label) :
    splitRoot l.text.toList = some (l.repository.map String.toList, l.body) := by
  rw [toList_text, splitRoot_rooted]

theorem cut_body (l : Label) : cut ':' l.body = some (l.package.toList, l.name.toList) :=
  cut_eq_some_iff.2 ⟨rfl, fun h => (l.package_valid _ h).2 rfl⟩

theorem eq_of_parts {l m : Label} (repository : l.repository = m.repository)
    (package : l.package = m.package) (name : l.name = m.name) : l = m := by
  cases l
  cases m
  simp_all

theorem text_injective {l m : Label} (h : l.text = m.text) : l = m := by
  have split := (splitRoot_text l).symm.trans (h ▸ splitRoot_text m)
  obtain ⟨hr, hb⟩ := Prod.mk.inj (Option.some.inj split)
  have parts := (cut_body l).symm.trans (hb ▸ cut_body m)
  obtain ⟨hp, hn⟩ := Prod.mk.inj (Option.some.inj parts)
  have repository : l.repository = m.repository :=
    Option.map_injective (fun _ _ => String.toList_inj.1) hr
  exact eq_of_parts repository (String.toList_inj.1 hp) (String.toList_inj.1 hn)

theorem splitBody_body (l : Label) (shown : String) :
    splitBody shown l.body = .ok (l.package.toList, l.name.toList) := by
  have separator : ':' ∉ l.name.toList := fun h => (l.name_valid.2 _ h).2 rfl
  rw [splitBody, cut_body]
  dsimp only
  rw [if_neg l.name_valid.1, if_neg separator]

theorem splitBody_package {l : Label} (named : lastSegment l.package.toList = l.name.toList)
    (shown : String) : splitBody shown l.package.toList = .ok (l.package.toList, l.name.toList) := by
  have separator : cut ':' l.package.toList = none :=
    cut_eq_none_iff.2 fun h => (l.package_valid _ h).2 rfl
  rw [splitBody, separator]
  dsimp only
  rw [named, if_neg l.name_valid.1]

theorem not_isForbidden_of_mem_rooted {l : Label} {body : List Char}
    (allowed : ∀ c ∈ body, isForbidden c = false) {c : Char} (h : c ∈ l.rooted body) :
    isForbidden c = false := by
  have at_sign : isForbidden '@' = false := rfl
  have slash : isForbidden '/' = false := rfl
  unfold rooted at h
  split at h
  · rw [List.mem_cons, List.mem_cons] at h
    rcases h with rfl | rfl | h
    · exact slash
    · exact slash
    · exact allowed c h
  · rename_i r hr
    rw [List.mem_cons, List.mem_append, List.mem_cons, List.mem_cons] at h
    rcases h with rfl | h | rfl | rfl | h
    · exact at_sign
    · exact (l.repository_valid r hr).1 c h
    · exact slash
    · exact slash
    · exact allowed c h

/-- A text is read as the label whose parts it splits into. -/
theorem parse_eq_ok_iff_parts {s : String} {l : Label} : parse s = .ok l ↔
    (∀ c ∈ trimChars s.toList, isForbidden c = false) ∧ ∃ body,
      splitRoot (trimChars s.toList) = some (l.repository.map String.toList, body) ∧
      splitBody (String.ofList (trimChars s.toList)) body =
        .ok (l.package.toList, l.name.toList) := by
  unfold parse
  dsimp only
  split
  · rename_i empty
    simp [empty, splitRoot]
  · split
    · rename_i c found
      have mem := List.mem_of_find?_eq_some found
      have forbidden := List.find?_some found
      constructor
      · exact nofun
      · rintro ⟨allowed, -⟩
        rw [allowed c mem] at forbidden
        cases forbidden
    · rename_i clear
      have allowed : ∀ c ∈ trimChars s.toList, isForbidden c = false := by simpa using clear
      split
      · rename_i root
        simp [root]
      · rename_i repository body root
        split
        · rename_i e refused
          constructor
          · exact nofun
          · rintro ⟨-, body', parts, read⟩
            obtain ⟨-, rfl⟩ := Prod.mk.inj (Option.some.inj (root.symm.trans parts))
            rw [refused] at read
            cases read
        · rename_i package name read
          constructor
          · rintro h
            obtain rfl := Except.ok.inj h
            refine ⟨allowed, body, ?_, ?_⟩
            · simp [root, Function.comp_def]
            · simpa using read
          · rintro ⟨-, body', parts, read'⟩
            obtain ⟨rfl, rfl⟩ := Prod.mk.inj (Option.some.inj (root.symm.trans parts))
            rw [read] at read'
            obtain ⟨rfl, rfl⟩ := Prod.mk.inj (Except.ok.inj read')
            refine congrArg Except.ok (eq_of_parts ?_ ?_ ?_)
            · simp [Function.comp_def]
            · exact String.ofList_toList
            · exact String.ofList_toList

/-- What stands after the root may spell the package and the name in any way that is read as them. -/
theorem parse_of_rooted {s : String} {l : Label} {body : List Char}
    (text : s.toList = l.rooted body) (allowed : ∀ c ∈ body, isForbidden c = false)
    (read : ∀ shown, splitBody shown body = .ok (l.package.toList, l.name.toList)) :
    parse s = .ok l := by
  have clear : ∀ c ∈ s.toList, isForbidden c = false := fun c hc =>
    not_isForbidden_of_mem_rooted allowed (text ▸ hc)
  have trimmed : trimChars s.toList = s.toList := by
    refine trimChars_eq_self (List.all_eq_true.2 fun c hc => ?_)
    have := clear c hc
    simp_all [isForbidden]
  rw [parse_eq_ok_iff_parts, trimmed]
  exact ⟨clear, body, text ▸ splitRoot_rooted l body, read _⟩

theorem not_isForbidden_of_mem_body {l : Label} {c : Char} (h : c ∈ l.body) :
    isForbidden c = false := by
  rw [body, List.mem_append, List.mem_cons] at h
  rcases h with h | rfl | h
  · exact (l.package_valid c h).1
  · rfl
  · exact (l.name_valid.2 c h).1

/-- The canonical spelling of a label is read as that label. -/
theorem parse_text (l : Label) : parse l.text = .ok l :=
  parse_of_rooted (toList_text l) (fun _ => not_isForbidden_of_mem_body) (splitBody_body l)

/-- So is the shorthand, where there is one. -/
theorem parse_shorthand {l : Label} (named : lastSegment l.package.toList = l.name.toList) :
    parse l.shorthand = .ok l :=
  parse_of_rooted String.toList_ofList (fun c hc => (l.package_valid c hc).1)
    (splitBody_package named)

theorem isRepository_of_none (r : String) (named : none = some r) : IsRepository r :=
  nomatch named

/-- A target of the main workspace. -/
def inWorkspace (package name : String) (package_valid : IsPackage package)
    (name_valid : IsTargetName name) : Label :=
  ⟨none, package, name, isRepository_of_none, package_valid, name_valid⟩

instance : Std.LawfulEqOrd Label where
  eq_of_compare {l m} h :=
    text_injective (Std.LawfulEqOrd.eq_of_compare (show compare l.text m.text = .eq from h))

end Label

namespace LibraryKey

instance : Std.LawfulEqOrd LibraryKey where
  eq_of_compare {k l} h := by
    have ht : k.text = l.text :=
      Std.LawfulEqOrd.eq_of_compare (show compare k.text l.text = .eq from h)
    cases k
    cases l
    simpa using ht

end LibraryKey

end WorkspaceSync
