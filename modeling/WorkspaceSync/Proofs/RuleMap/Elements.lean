import WorkspaceSync.Proofs.Rule.Encoding
import WorkspaceSync.Proofs.RuleMap

/-!
# What becomes of each element of a rule document

An element is kept, or it is malformed, or its label is there already; each step of reading a
document counts one of the three, and so the counts of the whole document add up. Which elements are
kept is told by what the elements declare alone: the first that declares a label counts.
-/

namespace WorkspaceSync.RuleMap

/-- The first rule that elements declare under a label. -/
def firstDeclared? (elements : List Json) (l : Label) : Option Rule :=
  elements.findSome? fun j => (declared? j).filter fun r => r.label = l

theorem validate_of_declared {j : Json} {r : Rule} (declared : declared? j = some r) :
    r.validate = .ok () := by
  obtain ⟨_, valid⟩ := Option.filter_eq_some_iff.1 declared
  unfold Rule.isValid at valid
  split at valid
  · rename_i checked
    exact checked
  · cases valid

theorem find?_filterMap_declared (elements : List Json) (l : Label) :
    (elements.filterMap declared?).find? (fun r => r.label = l) = firstDeclared? elements l := by
  induction elements with
  | nil => rfl
  | cons j elements ih =>
    rw [firstDeclared?, List.findSome?_cons]
    cases declared : declared? j with
    | none =>
      rw [List.filterMap_cons_none declared]
      exact ih
    | some r =>
      rw [List.filterMap_cons_some declared, List.find?_cons, Option.filter_some]
      cases decide (r.label = l) with
      | true => rfl
      | false => exact ih

theorem get?_ofElements (elements : List Json) (l : Label) :
    (ofElements elements).1.get? l = firstDeclared? elements l := by
  rw [ofElements_fst, get?_ofRules, find?_filterMap_declared]

theorem exists_declared_of_mem {elements : List Json} {r : Rule}
    (mem : r ∈ (ofElements elements).1.rules) : ∃ j ∈ elements, declared? j = some r := by
  have bound := (SortedMap.KeyedBy.mem_values_iff (keyed_ofElements elements)).1 mem
  rw [get?_ofElements, firstDeclared?, List.findSome?_eq_some_iff] at bound
  obtain ⟨before, j, after, rfl, first, -⟩ := bound
  refine ⟨j, by simp, ?_⟩
  exact (Option.filter_eq_some_iff.1 first).1

/-- Whatever level a rule of a map names, it is a feature release. -/
def NamesReleases (m : RuleMap) : Prop := ∀ r ∈ m.rules, ∀ l ∈ r.levels, l.IsFeatureRelease

theorem namesReleases_of_parse {document : String} {m : RuleMap} {ds : List Diagnostic}
    (h : parse document = .ok (m, ds)) : m.NamesReleases := by
  unfold parse at h
  split at h
  · cases h
  · rename_i j _
    cases j with
    | array elements =>
      obtain rfl : (ofElements elements).1 = m := congrArg Prod.fst (Except.ok.inj h)
      intro r mem
      obtain ⟨j, -, declared⟩ := exists_declared_of_mem mem
      obtain ⟨read, -⟩ := Option.filter_eq_some_iff.1 declared
      exact Rule.levels_of_ofJson (toOption_eq_some_iff.1 read)
    | _ => cases h

/-! ## Counting -/

def countOf (code : DiagnosticCode) (ds : List Diagnostic) : Nat := ds.countP (·.code = code)

/-- What has been kept and what has been reported. -/
def tally (acc : RuleMap × List Diagnostic) : Nat :=
  acc.1.size + countOf .malformedRule acc.2 + countOf .duplicateRule acc.2

theorem tally_mk (m : RuleMap) (ds : List Diagnostic) :
    tally (m, ds) = m.size + countOf .malformedRule ds + countOf .duplicateRule ds := rfl

theorem countOf_append (code : DiagnosticCode) (ds : List Diagnostic) (d : Diagnostic) :
    countOf code (ds ++ [d]) = countOf code ds + if d.code = code then 1 else 0 := by
  rw [countOf, List.countP_append, List.countP_singleton]
  simp only [countOf, decide_eq_true_eq]

theorem code_malformedRule (label : Option Label) (message : String) :
    (malformedRule label message).code = .malformedRule := rfl

theorem code_duplicateRule (label : Label) : (duplicateRule label).code = .duplicateRule := rfl

theorem malformedRule_ne_duplicateRule :
    DiagnosticCode.malformedRule ≠ DiagnosticCode.duplicateRule := by decide

/-- Each element adds one. -/
theorem tally_addElement (acc : RuleMap × List Diagnostic) (element : Json × Nat) :
    tally (addElement acc element) = tally acc + 1 := by
  obtain ⟨m, ds⟩ := acc
  unfold addElement
  rcases read_cases element.2 element.1 with ⟨r, -, reading⟩ | ⟨-, label, message, reading⟩
  · rw [reading]
    dsimp only
    split
    · rw [tally_mk, tally_mk, countOf_append, countOf_append, code_duplicateRule, if_pos rfl,
        if_neg malformedRule_ne_duplicateRule.symm]
      omega
    · rename_i new
      rw [tally_mk, tally_mk, add, SortedMap.size_insertIfNew, if_neg new]
      omega
  · rw [reading]
    dsimp only
    rw [tally_mk, tally_mk, countOf_append, countOf_append, code_malformedRule, if_pos rfl,
      if_neg malformedRule_ne_duplicateRule]
    omega

theorem tally_foldl (l : List (Json × Nat)) (acc : RuleMap × List Diagnostic) :
    tally (l.foldl addElement acc) = tally acc + l.length := by
  induction l generalizing acc with
  | nil => rfl
  | cons e l ih =>
    rw [List.foldl_cons, ih, tally_addElement, List.length_cons]
    omega

theorem tally_ofElements (elements : List Json) :
    tally (ofElements elements) = elements.length := by
  rw [ofElements, tally_foldl, List.length_zipIdx]
  exact Nat.zero_add _

/-! ## Documents -/

variable {document document' : String} {elements before block block' after : List Json} {j : Json}

theorem parse_of_array (read : Json.parse document = .ok (.array elements)) :
    parse document = .ok (ofElements elements) := by
  rw [parse, read]
  rfl

/-- Documents whose elements declare the same in the same order have the same rules. -/
theorem exists_parse_of_declared (read : Json.parse document' = .ok (.array block))
    (same : ofRules (block.filterMap declared?) = ofRules (elements.filterMap declared?)) :
    ∃ ds, parse document' = .ok ((ofElements elements).1, ds) := by
  refine ⟨(ofElements block).2, ?_⟩
  rw [parse_of_array read, ofElements_fst, ← same, ← ofElements_fst]

/-- Every element is kept or reported, and the first good one under each label is kept. Malformed
elements do not matter for the rules, nor does the order of elements with labels of their own. -/
theorem read_leniently (read : Json.parse document = .ok (.array elements)) :
    ∃ m ds, parse document = .ok (m, ds) ∧
      (∀ l, m.get? l = firstDeclared? elements l) ∧
      (∀ r ∈ m.rules, r.validate = .ok ()) ∧
      m.size + countOf .malformedRule ds + countOf .duplicateRule ds = elements.length ∧
      (∀ before j after document', elements = before ++ j :: after → declared? j = none →
        Json.parse document' = .ok (.array (before ++ after)) →
        ∃ ds', parse document' = .ok (m, ds')) ∧
      (∀ before block after block' document', elements = before ++ block ++ after →
        block.Perm block' → ((block.filterMap declared?).map (·.label)).Nodup →
        Json.parse document' = .ok (.array (before ++ block' ++ after)) →
        ∃ ds', parse document' = .ok (m, ds')) ∧
      (∀ l : Label, Label.parse l.text = .ok l ∧
        (Label.lastSegment l.package.toList = l.name.toList → Label.parse l.shorthand = .ok l)) := by
  refine ⟨(ofElements elements).1, (ofElements elements).2, parse_of_array read,
    get?_ofElements elements, ?_, tally_ofElements elements, ?_, ?_, ?_⟩
  · intro r mem
    obtain ⟨j, _, declared⟩ := exists_declared_of_mem mem
    exact validate_of_declared declared
  · rintro before j after document' rfl malformed read'
    apply exists_parse_of_declared read'
    rw [List.filterMap_append, List.filterMap_append, List.filterMap_cons_none malformed]
  · rintro before block after block' document' rfl perm distinct read'
    apply exists_parse_of_declared read'
    simp only [List.filterMap_append]
    exact (ofRules_perm_between distinct (perm.filterMap declared?)).symm
  · intro l
    exact ⟨l.parse_text, Label.parse_shorthand⟩

/-! ## Elements that fail at each stage -/

theorem declared?_spelled {r : Rule} {spelling : String}
    (read : Label.parse spelling = .ok r.label)
    (features : ∀ l ∈ r.levels, l.IsFeatureRelease) :
    declared? (r.spelled spelling) = if r.isValid then some r else none := by
  rw [declared?, Rule.ofJson_spelled read features]
  exact Option.filter_some

def appLabel : Label := .inWorkspace "app" "app" (by decide) (by decide)

/-- A target `//app:app` with one source. -/
def appRule (kind source : String) : Rule where
  label := appLabel
  kind := kind
  sources := [.source source]
  dependencies := []
  payload := none

/-- The first is no rule, the source of the second is no location, and the label of the last is
there. -/
def mixedElements : List Json :=
  [.null, (appRule "java_binary" "").spelled "//app",
    (appRule "java_binary" "Main.java").spelled "//app", (appRule "java_test" "Test.java").toJson]

def mixedDocument : String := (Json.array mixedElements).print

theorem parse_app : Label.parse "//app" = .ok appLabel := by
  have spelling : appLabel.shorthand = "//app" := by decide
  rw [← spelling]
  exact Label.parse_shorthand rfl

theorem mixed_document_read :
    Json.parse mixedDocument = .ok (.array mixedElements) ∧
      ∃ m ds, parse mixedDocument = .ok (m, ds) ∧
        m.get? appLabel = some (appRule "java_binary" "Main.java") ∧
        m.size + countOf .malformedRule ds + countOf .duplicateRule ds = 4 := by
  have plain : Json.Plain Json.Machine.maxDepth (.array mixedElements) := by
    apply Json.Plain.array
    simp only [mixedElements, List.forall_mem_cons]
    exact ⟨.null, Rule.plain_spelled _ _, Rule.plain_spelled _ _, Rule.plain_spelled _ _, nofun⟩
  have text : Json.parse mixedDocument = .ok (.array mixedElements) := Json.parse_print plain
  obtain ⟨m, ds, read, bound, -, counts, -⟩ := read_leniently text
  refine ⟨text, m, ds, read, ?_, counts⟩
  rw [bound]
  have first : declared? ((appRule "java_binary" "").spelled "//app") = none :=
    declared?_spelled parse_app nofun
  have second : declared? ((appRule "java_binary" "Main.java").spelled "//app") =
      some (appRule "java_binary" "Main.java") :=
    declared?_spelled parse_app nofun
  rw [firstDeclared?, mixedElements, List.findSome?_cons, List.findSome?_cons, List.findSome?_cons,
    first, second]
  rfl

end WorkspaceSync.RuleMap
