import Mathlib.Data.List.Find
import Mathlib.Data.List.Nodup
import WorkspaceSync.Proofs.Label
import WorkspaceSync.Proofs.SortedMap
import WorkspaceSync.RuleMap

/-!
# Rule maps are keyed by the labels of their rules

A rule is only ever added under its own label, so every rule map that is built from rules or read
from a document has this property, and its rules stand in the order of their labels.
-/

namespace WorkspaceSync.RuleMap

/-- Every rule is kept under its own label. -/
def Keyed (m : RuleMap) : Prop := SortedMap.KeyedBy Rule.label m

theorem keyed_empty : Keyed SortedMap.empty := SortedMap.keyedBy_empty

theorem Keyed.add {m : RuleMap} (h : m.Keyed) (r : Rule) : (RuleMap.add m r).Keyed :=
  SortedMap.KeyedBy.insertIfNew h r

theorem keyed_ofRules (rules : List Rule) : (ofRules rules).Keyed := by
  suffices ∀ m : RuleMap, m.Keyed → (rules.foldl RuleMap.add m).Keyed from this _ keyed_empty
  induction rules with
  | nil =>
    intro _ h
    exact h
  | cons r rules ih =>
    intro m h
    exact ih _ (h.add r)

/-- The rule that an element of a document stands for: what it decodes to, if the locations of that
are valid. -/
def declared? (j : Json) : Option Rule := (Rule.ofJson j).toOption.filter Rule.isValid

/-- An element is taken for the rule that it stands for, or else reported. -/
theorem read_cases (index : Nat) (j : Json) :
    (∃ r, declared? j = some r ∧ read index j = .rule r) ∨
      declared? j = none ∧ ∃ label message, read index j = .malformed label message := by
  unfold declared? read
  cases Rule.ofJson j with
  | error e => exact .inr ⟨rfl, _, _, rfl⟩
  | ok r =>
    dsimp only [Except.toOption]
    cases checked : r.validate with
    | error e =>
      refine .inr ⟨?_, _, _, rfl⟩
      rw [Option.filter_some, Rule.isValid, checked]
      rfl
    | ok _ =>
      refine .inl ⟨r, ?_, rfl⟩
      rw [Option.filter_some, Rule.isValid, checked]
      rfl

theorem addElement_fst (acc : RuleMap × List Diagnostic) (element : Json × Nat) :
    (addElement acc element).1 = ((declared? element.1).map (add acc.1)).getD acc.1 := by
  unfold addElement
  rcases read_cases element.2 element.1 with ⟨r, declared, reading⟩ | ⟨none, label, message, reading⟩
  · rw [declared, reading]
    dsimp only
    split
    · rename_i present
      exact (if_pos present).symm
    · rfl
  · rw [none, reading]
    rfl

/-- A document gives the map of the rules that its elements stand for. -/
theorem ofElements_fst (elements : List Json) :
    (ofElements elements).1 = ofRules (elements.filterMap declared?) := by
  suffices ∀ (l : List (Json × Nat)) (acc : RuleMap × List Diagnostic),
      (l.foldl addElement acc).1 = ((l.map Prod.fst).filterMap declared?).foldl add acc.1 by
    rw [ofElements, this, List.zipIdx_map_fst]
    rfl
  intro l
  induction l with
  | nil =>
    intro acc
    rfl
  | cons e l ih =>
    intro acc
    rw [List.foldl_cons, ih, addElement_fst, List.map_cons]
    cases declared : declared? e.1 with
    | none => rw [List.filterMap_cons_none declared, Option.map_none, Option.getD_none]
    | some r =>
      rw [List.filterMap_cons_some declared, Option.map_some, Option.getD_some, List.foldl_cons]

theorem keyed_ofElements (elements : List Json) : (ofElements elements).1.Keyed := by
  rw [ofElements_fst]
  exact keyed_ofRules _

/-- Every document that is read gives a rule map that is keyed so. -/
theorem keyed_of_parse {document : String} {m : RuleMap} {ds : List Diagnostic}
    (h : parse document = .ok (m, ds)) : m.Keyed := by
  unfold parse at h
  split at h
  · cases h
  · rename_i j _
    cases j with
    | array elements =>
      have hm : (ofElements elements).1 = m := congrArg Prod.fst (Except.ok.inj h)
      exact hm ▸ keyed_ofElements elements
    | _ => cases h

/-- Of the rules with a label the first is kept. -/
theorem get?_ofRules (rules : List Rule) (l : Label) :
    (ofRules rules).get? l = rules.find? fun r => r.label = l := by
  rw [← SortedMap.get?_ofListFirst_map, ofRules, SortedMap.ofListFirst, List.foldl_map]
  rfl

theorem find?_label_perm {rules rules' : List Rule} (distinct : (rules.map (·.label)).Nodup)
    (perm : rules.Perm rules') (l : Label) :
    rules.find? (fun r => r.label = l) = rules'.find? fun r => r.label = l := by
  apply List.find?_eq_find?_of_perm perm
  rintro r ⟨mem, label⟩ s ⟨mem', label'⟩
  apply List.inj_on_of_nodup_map distinct mem mem'
  exact (of_decide_eq_true label).trans (of_decide_eq_true label').symm

/-- Rules with labels of their own can be added in any order, whatever is added before and after
them. -/
theorem ofRules_perm_between {rules rules' first last : List Rule}
    (distinct : (rules.map (·.label)).Nodup) (perm : rules.Perm rules') :
    ofRules (first ++ rules ++ last) = ofRules (first ++ rules' ++ last) := by
  apply SortedMap.eq_of_get?_eq
  intro l
  simp only [get?_ofRules, List.find?_append, find?_label_perm distinct perm]

theorem ofRules_perm {rules rules' : List Rule} (distinct : (rules.map (·.label)).Nodup)
    (perm : rules.Perm rules') : ofRules rules = ofRules rules' := by
  have between := @ofRules_perm_between rules rules' [] [] distinct perm
  rwa [List.nil_append, List.append_nil, List.nil_append, List.append_nil] at between

theorem Keyed.rules_sorted {m : RuleMap} (h : m.Keyed) :
    m.rules.Pairwise fun r s => compare r.label s.label = .lt :=
  SortedMap.KeyedBy.values_sorted h

end WorkspaceSync.RuleMap
