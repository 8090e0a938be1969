import WorkspaceSync.Proofs.Json.RoundTrip
import WorkspaceSync.Proofs.Json.Variation
import WorkspaceSync.Proofs.Label
import WorkspaceSync.Proofs.Rule.Levels

/-!
# Rules are read as they were written

Each structure that a rule is made of gets its fields, with the defaults of those that have one, and
a proof that its decoder reads the encoding and every variation of it as the value that was encoded.
The proof for a structure uses those for its parts, down to texts, labels and language levels, of
which feature releases are read back. A payload is apart: its tag is one more field of the object that
has its content.
-/

namespace WorkspaceSync

open Json (Decodes Decoder Field ListVaries MembersVary ObjectVaries OptionVaries Plain Record
  RefusesNull)

/-! ## Defaults -/

namespace Json

variable {α : Type}

theorem default_string {s t : String} (h : some (string s) = some (string t)) :
    some s = some t := by
  cases h
  rfl

theorem default_bool {b c : Bool} (h : some (bool b) = some (bool c)) : some b = some c := by
  cases h
  rfl

theorem default_list {f : α → Json} {l : List α} (h : some (array []) = some (ofList f l)) :
    some [] = some l := by
  have nothing : [] = l.map f := array.inj (Option.some.inj h)
  rw [List.map_eq_nil_iff.1 nothing.symm]

theorem default_option {f : α → Json} (given : ∀ a, f a ≠ null) {o : Option α}
    (h : some null = some (ofOption f o)) : some none = some o := by
  cases o with
  | none => rfl
  | some a => exact absurd (Option.some.inj h).symm (given a)

theorem decodes_ofOption {d : Decoder α} {variation : Json → Json → Prop} {f : α → Json}
    (refuses : RefusesNull d) (given : ∀ a, f a ≠ null) {o : Option α}
    (part : ∀ a ∈ o, Decodes d variation (f a) a) :
    Decodes d.optional (OptionVaries variation) (ofOption f o) o := by
  cases o with
  | none => exact decodes_none
  | some a => exact decodes_optional refuses (part a rfl) (given a)

theorem plain_ofList {d : Nat} {f : α → Json} (parts : ∀ a, Plain d (f a)) (l : List α) :
    Plain (d + 1) (ofList f l) := by
  apply Plain.array
  intro j written
  obtain ⟨a, _, rfl⟩ := List.mem_map.1 written
  exact parts a

theorem plain_ofOption {d : Nat} {f : α → Json} (part : ∀ a, Plain d (f a)) (o : Option α) :
    Plain d (ofOption f o) := by
  cases o with
  | none => exact .null
  | some a => exact part a

end Json

/-! ## Labels and language levels -/

namespace Label

theorem decodes_all (l : List Label) :
    Decodes decoder.list (ListVaries Eq) (Json.ofList toJson l) l :=
  Json.decodes_list fun a _ => Json.decodes_parsed a.parse_text

end Label

namespace LanguageLevel

theorem decodes {l : LanguageLevel} (feature : l.IsFeatureRelease) :
    Decodes decoder Eq l.toJson l := by
  apply Json.decodes_parsed
  rw [parse, parse?_text feature]

theorem refusesNull : RefusesNull decoder := by
  intro p a read
  cases read

theorem toJson_ne_null (l : LanguageLevel) : l.toJson ≠ .null := nofun

theorem decodes_option {o : Option LanguageLevel} (features : ∀ l ∈ o, l.IsFeatureRelease) :
    Decodes decoder.optional (OptionVaries Eq) (Json.ofOption toJson o) o :=
  Json.decodes_ofOption refusesNull toJson_ne_null fun l mem => decodes (features l mem)

end LanguageLevel

/-! ## Locations and libraries -/

namespace ArtifactLocation

def fields : List Field :=
  [⟨"root_execution_path_fragment", Eq, some (.string "")⟩,
   ⟨"relative_path", Eq, none⟩,
   ⟨"is_source", Eq, some (.bool false)⟩]

def Varies : Json → Json → Prop := ObjectVaries fields

theorem decodes (a : ArtifactLocation) : Decodes decoder Varies a.toJson a := by
  apply Json.decodes_ofShape (by decide)
  · exact .cons ⟨rfl, rfl⟩ (.cons ⟨rfl, rfl⟩ (.cons ⟨rfl, rfl⟩ .nil))
  · rintro r (_ | ⟨fragment, _ | ⟨path, _ | ⟨source, _⟩⟩⟩)
    have fragment : r.Gives "root_execution_path_fragment" Decoder.text (some "") a.rootFragment :=
      fragment.gives (Json.decodes_text _) Json.default_string
    have path : r.Gives "relative_path" Decoder.text none a.relativePath :=
      path.gives (Json.decodes_text _) nofun
    have source : r.Gives "is_source" Decoder.boolean (some false) a.isSource :=
      source.gives (Json.decodes_boolean _) Json.default_bool
    constructor
    · simp only [shape, List.forall_mem_cons]
      exact ⟨fragment.accepts nofun, path.accepts fun _ => rfl, source.accepts nofun, nofun⟩
    · rw [ofRecord, path.get?, fragment.getD, source.getD]
      rfl

theorem plain_toJson {d : Nat} (a : ArtifactLocation) : Plain (d + 1) a.toJson := by
  apply Plain.object
  simp only [List.forall_mem_cons]
  exact ⟨.string, .string, .bool, nofun⟩

theorem refusesNull : RefusesNull decoder := by
  intro p a read
  cases read

theorem toJson_ne_null (a : ArtifactLocation) : a.toJson ≠ .null := nofun

theorem decodes_all (l : List ArtifactLocation) :
    Decodes decoder.list (ListVaries Varies) (Json.ofList toJson l) l :=
  Json.decodes_list fun a _ => a.decodes

theorem decodes_option (o : Option ArtifactLocation) :
    Decodes decoder.optional (OptionVaries Varies) (Json.ofOption toJson o) o :=
  Json.decodes_ofOption refusesNull toJson_ne_null fun a _ => a.decodes

end ArtifactLocation

namespace LibraryArtifact

def fields : List Field :=
  [⟨"jar", ArtifactLocation.Varies, none⟩,
   ⟨"runtime_jar", OptionVaries ArtifactLocation.Varies, some .null⟩,
   ⟨"source_jar", OptionVaries ArtifactLocation.Varies, some .null⟩]

def Varies : Json → Json → Prop := ObjectVaries fields

theorem decodes (l : LibraryArtifact) : Decodes decoder Varies l.toJson l := by
  have jarOf := l.jar.decodes
  have runtimeOf := ArtifactLocation.decodes_option l.runtimeJar
  have sourceOf := ArtifactLocation.decodes_option l.sourceJar
  have left := fun o => Json.default_option (o := o) ArtifactLocation.toJson_ne_null
  apply Json.decodes_ofShape (by decide)
  · exact .cons ⟨rfl, jarOf.same⟩ (.cons ⟨rfl, runtimeOf.same⟩ (.cons ⟨rfl, sourceOf.same⟩ .nil))
  · rintro r (_ | ⟨jar, _ | ⟨runtime, _ | ⟨source, _⟩⟩⟩)
    have jar : r.Gives "jar" ArtifactLocation.decoder none l.jar := jar.gives jarOf nofun
    have runtime : r.Gives "runtime_jar" ArtifactLocation.decoder.optional (some none)
        l.runtimeJar := runtime.gives runtimeOf (left _)
    have source : r.Gives "source_jar" ArtifactLocation.decoder.optional (some none)
        l.sourceJar := source.gives sourceOf (left _)
    constructor
    · simp only [shape, List.forall_mem_cons]
      exact ⟨jar.accepts fun _ => rfl, runtime.accepts nofun, source.accepts nofun, nofun⟩
    · rw [ofRecord, jar.get?, runtime.join, source.join]
      rfl

theorem decodes_all (l : List LibraryArtifact) :
    Decodes decoder.list (ListVaries Varies) (Json.ofList toJson l) l :=
  Json.decodes_list fun a _ => a.decodes

theorem plain_toJson {d : Nat} (l : LibraryArtifact) : Plain (d + 2) l.toJson := by
  have option := Json.plain_ofOption (ArtifactLocation.plain_toJson (d := d))
  apply Plain.object
  simp only [List.forall_mem_cons]
  exact ⟨l.jar.plain_toJson, option _, option _, nofun⟩

end LibraryArtifact

/-! ## Payloads -/

namespace JavaInfo

def fields : List Field :=
  [⟨"jars", ListVaries LibraryArtifact.Varies, some (.array [])⟩,
   ⟨"generated_jars", ListVaries LibraryArtifact.Varies, some (.array [])⟩,
   ⟨"package_manifest", OptionVaries ArtifactLocation.Varies, some .null⟩,
   ⟨"jdeps", OptionVaries ArtifactLocation.Varies, some .null⟩,
   ⟨"source_version", OptionVaries Eq, some .null⟩]

variable {i : JavaInfo}

theorem complete (features : ∀ l ∈ i.sourceVersion, l.IsFeatureRelease) :
    Json.Complete fields i.jsonMembers :=
  .cons ⟨rfl, (LibraryArtifact.decodes_all i.jars).same⟩
    (.cons ⟨rfl, (LibraryArtifact.decodes_all i.generatedJars).same⟩
      (.cons ⟨rfl, (ArtifactLocation.decodes_option i.packageManifest).same⟩
        (.cons ⟨rfl, (ArtifactLocation.decodes_option i.dependencyManifest).same⟩
          (.cons ⟨rfl, (LanguageLevel.decodes_option features).same⟩ .nil))))

theorem decodes (features : ∀ l ∈ i.sourceVersion, l.IsFeatureRelease) :
    Decodes decoder (ObjectVaries fields) (.object i.jsonMembers) i := by
  have left := fun o => Json.default_option (o := o) ArtifactLocation.toJson_ne_null
  apply Json.decodes_ofShape (by decide) (complete features)
  rintro r (_ | ⟨jars, _ | ⟨generated, _ | ⟨packages, _ | ⟨dependencies, _ | ⟨version, _⟩⟩⟩⟩⟩)
  have jars : r.Gives "jars" LibraryArtifact.decoder.list (some []) i.jars :=
    jars.gives (LibraryArtifact.decodes_all _) Json.default_list
  have generated : r.Gives "generated_jars" LibraryArtifact.decoder.list (some [])
      i.generatedJars := generated.gives (LibraryArtifact.decodes_all _) Json.default_list
  have packages : r.Gives "package_manifest" ArtifactLocation.decoder.optional (some none)
      i.packageManifest := packages.gives (ArtifactLocation.decodes_option _) (left _)
  have dependencies : r.Gives "jdeps" ArtifactLocation.decoder.optional (some none)
      i.dependencyManifest := dependencies.gives (ArtifactLocation.decodes_option _) (left _)
  have version : r.Gives "source_version" LanguageLevel.decoder.optional (some none)
      i.sourceVersion :=
    version.gives (LanguageLevel.decodes_option features)
      (Json.default_option LanguageLevel.toJson_ne_null)
  constructor
  · simp only [shape, List.forall_mem_cons]
    exact ⟨jars.accepts nofun, generated.accepts nofun, packages.accepts nofun,
      dependencies.accepts nofun, version.accepts nofun, nofun⟩
  · rw [ofRecord, jars.getD, generated.getD, packages.join, dependencies.join, version.join]

end JavaInfo

namespace ToolchainInfo

def fields : List Field :=
  [⟨"source_version", Eq, none⟩,
   ⟨"target_version", OptionVaries Eq, some .null⟩]

variable {t : ToolchainInfo}

theorem complete (features : ∀ l ∈ t.targetVersion, l.IsFeatureRelease) :
    Json.Complete fields t.jsonMembers :=
  .cons ⟨rfl, rfl⟩ (.cons ⟨rfl, (LanguageLevel.decodes_option features).same⟩ .nil)

theorem decodes (feature : t.sourceVersion.IsFeatureRelease)
    (features : ∀ l ∈ t.targetVersion, l.IsFeatureRelease) :
    Decodes decoder (ObjectVaries fields) (.object t.jsonMembers) t := by
  apply Json.decodes_ofShape (by decide) (complete features)
  rintro r (_ | ⟨source, _ | ⟨target, _⟩⟩)
  have source : r.Gives "source_version" LanguageLevel.decoder none t.sourceVersion :=
    source.gives (LanguageLevel.decodes feature) nofun
  have target : r.Gives "target_version" LanguageLevel.decoder.optional (some none)
      t.targetVersion :=
    target.gives (LanguageLevel.decodes_option features)
      (Json.default_option LanguageLevel.toJson_ne_null)
  constructor
  · simp only [shape, List.forall_mem_cons]
    exact ⟨source.accepts fun _ => rfl, target.accepts nofun, nofun⟩
  · rw [ofRecord, source.get?, target.join]
    rfl

end ToolchainInfo

namespace Payload

/-- The field that tells the kind of a payload. -/
def kindField : Field := ⟨"kind", Eq, none⟩

/-- The fields beside the kind. -/
def contentFields : Tag → List Field
  | .java => JavaInfo.fields
  | .javaToolchain => ToolchainInfo.fields
  | .other => []

/-- Which fields the object of a payload has depends on the kind that it names. -/
inductive Varies : Json → Json → Prop
  | tagged {ms ms' name} (tag : Json.member? "kind" ms = some (.string name))
      (vary : MembersVary (kindField :: contentFields (.ofName name)) ms ms') :
      Varies (.object ms) (.object ms')

theorem distinct (t : Tag) : ((kindField :: contentFields t).map Field.name).Nodup := by
  cases t <;> decide

/-- The tag is read apart; what is left of a variation is a variation of the content. -/
theorem decodes_tagged (name : String) {content : List (String × Json)} {a : Payload}
    (complete : Json.Complete (contentFields (.ofName name)) content)
    (read : ∀ j, ObjectVaries (contentFields (.ofName name)) (.object content) j →
      decodeContent j (.ofName name) = .ok a) :
    Decodes decoder Varies (.object (("kind", .string name) :: content)) a := by
  have once : ("kind" :: content.map Prod.fst).Nodup := by
    rw [complete.names]
    exact distinct (.ofName name)
  have untagged := (List.nodup_cons.1 once).1
  have named : Json.member? "kind" (("kind", .string name) :: content) = some (.string name) := by
    rw [Json.member?_cons, Json.member?_eq_none_iff.2 untagged]
    rfl
  constructor
  · refine .tagged named (.keep List.mem_cons_self rfl (complete.vary ?_))
    exact List.subset_cons_self _ _
  · intro p j varies
    obtain @⟨_, ms', other, tag, vary⟩ := varies
    obtain rfl : name = other := Json.string.inj (Option.some.inj (named.symm.trans tag))
    have apart := (List.nodup_cons.1 (distinct (.ofName name))).1
    have rest := vary.erase apart
    have whole : (("kind", Json.string name) :: content).filter (·.1 ≠ kindField.name) =
        content := by
      rw [List.filter_cons_of_neg (by simp [kindField]), List.filter_eq_self.2]
      intro m mem
      apply decide_eq_true
      intro same
      exact untagged (List.mem_map.2 ⟨m, mem, same⟩)
    rw [whole] at rest
    rcases vary.member? (distinct _) once List.mem_cons_self List.mem_cons_self with
      ⟨_, kind, rfl⟩ | ⟨_, default⟩
    · have kind : Json.member? "kind" ms' = some (.string name) := kind
      unfold decoder
      dsimp only
      rw [kind]
      exact read _ (.members rest)
    · cases default

theorem decodes {a : Payload} (features : ∀ l ∈ a.levels, l.IsFeatureRelease) :
    Decodes decoder Varies a.toJson a := by
  cases a with
  | java i =>
    have version : ∀ l ∈ i.sourceVersion, l.IsFeatureRelease := by
      intro l mem
      exact features l (Option.mem_toList.2 mem)
    apply decodes_tagged "java" (JavaInfo.complete version)
    intro j varies
    exact congrArg (Except.map java) ((JavaInfo.decodes version).read .tagged j varies)
  | javaToolchain t =>
    have target : ∀ l ∈ t.targetVersion, l.IsFeatureRelease := by
      intro l mem
      exact features l (List.mem_cons_of_mem _ (Option.mem_toList.2 mem))
    have decodes := ToolchainInfo.decodes (features _ List.mem_cons_self) target
    apply decodes_tagged "java_toolchain" (ToolchainInfo.complete target)
    intro j varies
    exact congrArg (Except.map javaToolchain) (decodes.read .tagged j varies)
  | unrecognized =>
    apply decodes_tagged "unrecognized" .nil
    rintro _ ⟨_⟩
    rfl

theorem plain_toJson {d : Nat} (a : Payload) : Plain (d + 4) a.toJson := by
  have level : ∀ l : LanguageLevel, Plain (d + 3) l.toJson := fun _ => .string
  cases a with
  | java i =>
    have libraries := Json.plain_ofList (LibraryArtifact.plain_toJson (d := d))
    have locations := Json.plain_ofOption (ArtifactLocation.plain_toJson (d := d + 2))
    apply Plain.object
    simp only [JavaInfo.jsonMembers, List.forall_mem_cons]
    exact ⟨.string, libraries _, libraries _, locations _, locations _,
      Json.plain_ofOption level _, nofun⟩
  | javaToolchain t =>
    apply Plain.object
    simp only [ToolchainInfo.jsonMembers, List.forall_mem_cons]
    exact ⟨.string, .string, Json.plain_ofOption level _, nofun⟩
  | unrecognized =>
    apply Plain.object
    simp only [List.forall_mem_cons]
    exact ⟨.string, nofun⟩

theorem refusesNull : RefusesNull decoder := by
  intro p a read
  cases read

theorem toJson_ne_null (a : Payload) : a.toJson ≠ .null := by
  cases a <;> nofun

theorem decodes_option {o : Option Payload}
    (features : ∀ a ∈ o, ∀ l ∈ a.levels, l.IsFeatureRelease) :
    Decodes decoder.optional (OptionVaries Varies) (Json.ofOption toJson o) o :=
  Json.decodes_ofOption refusesNull toJson_ne_null fun a mem => decodes (features a mem)

end Payload

/-! ## Rules -/

namespace Rule

def fields : List Field :=
  [⟨"label", Eq, none⟩,
   ⟨"kind", Eq, none⟩,
   ⟨"sources", ListVaries ArtifactLocation.Varies, some (.array [])⟩,
   ⟨"dependencies", ListVaries Eq, some (.array [])⟩,
   ⟨"payload", OptionVaries Payload.Varies, some .null⟩]

/-- Unknown members are added to any of the objects of a rule, and defaults are left out. -/
def Varies : Json → Json → Prop := ObjectVaries fields

/-- The encoding of a rule with its label spelled in another way. -/
def spelled (r : Rule) (label : String) : Json :=
  .object [
    ("label", .string label),
    ("kind", .string r.kind),
    ("sources", Json.ofList ArtifactLocation.toJson r.sources),
    ("dependencies", Json.ofList Label.toJson r.dependencies),
    ("payload", Json.ofOption Payload.toJson r.payload)]

theorem spelled_text (r : Rule) : r.spelled r.label.text = r.toJson := rfl

theorem decodes_spelled {rule : Rule} {spelling : String}
    (read : Label.parse spelling = .ok rule.label)
    (features : ∀ l ∈ rule.levels, l.IsFeatureRelease) :
    Decodes decoder Varies (rule.spelled spelling) rule := by
  have labelOf : Decodes Label.decoder Eq (.string spelling) rule.label :=
    Json.decodes_parsed read
  have sourcesOf := ArtifactLocation.decodes_all rule.sources
  have dependenciesOf := Label.decodes_all rule.dependencies
  have payloadOf : Decodes Payload.decoder.optional (OptionVaries Payload.Varies)
      (Json.ofOption Payload.toJson rule.payload) rule.payload := by
    apply Payload.decodes_option
    intro a payload l named
    exact features l (mem_levels payload named)
  apply Json.decodes_ofShape (by decide)
  · exact .cons ⟨rfl, labelOf.same⟩ (.cons ⟨rfl, rfl⟩ (.cons ⟨rfl, sourcesOf.same⟩
      (.cons ⟨rfl, dependenciesOf.same⟩ (.cons ⟨rfl, payloadOf.same⟩ .nil))))
  · rintro r (_ | ⟨label, _ | ⟨kind, _ | ⟨sources, _ | ⟨dependencies, _ | ⟨payload, _⟩⟩⟩⟩⟩)
    have label : r.Gives "label" Label.decoder none rule.label := label.gives labelOf nofun
    have kind : r.Gives "kind" Decoder.text none rule.kind :=
      kind.gives (Json.decodes_text _) nofun
    have sources : r.Gives "sources" ArtifactLocation.decoder.list (some []) rule.sources :=
      sources.gives sourcesOf Json.default_list
    have dependencies : r.Gives "dependencies" Label.decoder.list (some []) rule.dependencies :=
      dependencies.gives dependenciesOf Json.default_list
    have payload : r.Gives "payload" Payload.decoder.optional (some none) rule.payload :=
      payload.gives payloadOf (Json.default_option Payload.toJson_ne_null)
    constructor
    · simp only [shape, List.forall_mem_cons]
      exact ⟨label.accepts fun _ => rfl, kind.accepts fun _ => rfl, sources.accepts nofun,
        dependencies.accepts nofun, payload.accepts nofun, nofun⟩
    · rw [ofRecord, label.get?, kind.get?, sources.getD, dependencies.getD, payload.join]
      rfl

theorem ofJson_spelled {r : Rule} {spelling : String} (read : Label.parse spelling = .ok r.label)
    (features : ∀ l ∈ r.levels, l.IsFeatureRelease) : ofJson (r.spelled spelling) = .ok r :=
  (decodes_spelled read features).read .document _ (decodes_spelled read features).same

theorem ofJson_toJson {r : Rule} (features : ∀ l ∈ r.levels, l.IsFeatureRelease) :
    ofJson r.toJson = .ok r := by
  rw [← r.spelled_text]
  exact ofJson_spelled r.label.parse_text features

/-- Rules are nested five levels deep at most. -/
theorem plain_spelled {d : Nat} (r : Rule) (spelling : String) :
    Plain (d + 5) (r.spelled spelling) := by
  have labels : Plain (d + 4) (Json.ofList Label.toJson r.dependencies) :=
    Json.plain_ofList (d := d + 3) (fun _ => .string) _
  apply Plain.object
  simp only [List.forall_mem_cons]
  exact ⟨.string, .string, Json.plain_ofList (ArtifactLocation.plain_toJson (d := d + 2)) _, labels,
    Json.plain_ofOption Payload.plain_toJson _, nofun⟩

/-- The text of an encoding is read as that encoding and, if all levels are feature releases, decoded
to the rule that was encoded; so is every variation. -/
theorem encoding_read_back {r : Rule} (features : ∀ l ∈ r.levels, l.IsFeatureRelease) :
    Json.parse r.toJson.print = .ok r.toJson ∧ ofJson r.toJson = .ok r ∧
      ∀ j, Varies r.toJson j → ofJson j = .ok r := by
  refine ⟨Json.parse_print (r.plain_spelled r.label.text), ofJson_toJson features, ?_⟩
  intro j varies
  exact (decodes_spelled r.label.parse_text features).read .document j varies

/-! ## Unknown members on every level -/

def utilJar : ArtifactLocation := .generated "bin" "util.jar"

def utilInfo : JavaInfo :=
  { JavaInfo.empty with jars := [.ofJar utilJar], sourceVersion := some ⟨8⟩ }

/-- A target `//tools:util` with one source, which makes one jar. -/
def utilRule : Rule where
  label := .inWorkspace "tools" "util" (by decide) (by decide)
  kind := "java_library"
  sources := [.source "Util.java"]
  dependencies := []
  payload := some (.java utilInfo)

/-- Here `kind` is a member that a location does not know. -/
def jarSpelling : Json :=
  .object [("kind", .string "binary"), ("root_execution_path_fragment", .string "bin"),
    ("relative_path", .string "util.jar")]

def payloadSpelling : Json :=
  .object [("deps", .array []), ("kind", .string "java"),
    ("jars", .array [.object [("jar", jarSpelling), ("abi", .object [])]]),
    ("source_version", .string "1.8")]

def sourceSpelling : Json :=
  .object [("relative_path", .string "Util.java"), ("digest", .null), ("is_source", .bool true)]

/-- The rule without the members that hold their default, and with an unknown one in each object. -/
def utilSpelling : Json :=
  .object [("aspect", .number (.natural 3)), ("label", .string "//tools:util"),
    ("kind", .string "java_library"), ("sources", .array [sourceSpelling]),
    ("payload", payloadSpelling)]

theorem varies_jarSpelling : ArtifactLocation.Varies utilJar.toJson jarSpelling := by
  apply ObjectVaries.members
  apply MembersVary.add (by decide)
  apply MembersVary.keep (.head _) rfl
  apply MembersVary.keep (.tail _ (.head _)) rfl
  apply MembersVary.leaveOut (.tail _ (.tail _ (.head _))) rfl
  exact .nil

theorem varies_sourceSpelling :
    ArtifactLocation.Varies (ArtifactLocation.source "Util.java").toJson sourceSpelling := by
  apply ObjectVaries.members
  apply MembersVary.leaveOut (.head _) rfl
  apply MembersVary.keep (.tail _ (.head _)) rfl
  apply MembersVary.add (by decide)
  apply MembersVary.keep (.tail _ (.tail _ (.head _))) rfl
  exact .nil

theorem varies_payloadSpelling : Payload.Varies (Payload.java utilInfo).toJson payloadSpelling := by
  have library : LibraryArtifact.Varies (LibraryArtifact.ofJar utilJar).toJson
      (.object [("jar", jarSpelling), ("abi", .object [])]) := by
    apply ObjectVaries.members
    apply MembersVary.keep (.head _) varies_jarSpelling
    apply MembersVary.leaveOut (.tail _ (.head _)) rfl
    apply MembersVary.leaveOut (.tail _ (.tail _ (.head _))) rfl
    exact .add (by decide) .nil
  have version : OptionVaries Eq (Json.ofOption LanguageLevel.toJson utilInfo.sourceVersion)
      (.string "1.8") :=
    .value (show Json.string "1.8" ≠ .null from nofun) rfl
  apply @Payload.Varies.tagged _ _ "java" rfl
  apply MembersVary.add (by decide)
  apply MembersVary.keep (.head _) rfl
  apply MembersVary.keep (.tail _ (.head _)) (ListVaries.items (.cons library .nil))
  apply MembersVary.leaveOut (.tail _ (.tail _ (.head _))) rfl
  apply MembersVary.leaveOut (.tail _ (.tail _ (.tail _ (.head _)))) rfl
  apply MembersVary.leaveOut (.tail _ (.tail _ (.tail _ (.tail _ (.head _))))) rfl
  apply MembersVary.keep (.tail _ (.tail _ (.tail _ (.tail _ (.tail _ (.head _)))))) version
  exact .nil

theorem varies_utilSpelling : Varies utilRule.toJson utilSpelling := by
  apply ObjectVaries.members
  apply MembersVary.add (by decide)
  apply MembersVary.keep (.head _) rfl
  apply MembersVary.keep (.tail _ (.head _)) rfl
  apply MembersVary.keep (.tail _ (.tail _ (.head _)))
    (ListVaries.items (.cons varies_sourceSpelling .nil))
  apply MembersVary.leaveOut (.tail _ (.tail _ (.tail _ (.head _)))) rfl
  apply MembersVary.keep (.tail _ (.tail _ (.tail _ (.tail _ (.head _)))))
    (OptionVaries.value (Payload.toJson_ne_null _) varies_payloadSpelling)
  exact .nil

theorem read_with_unknown_members :
    utilRule.levels = [⟨8⟩] ∧ (∀ l ∈ utilRule.levels, l.IsFeatureRelease) ∧
      Varies utilRule.toJson utilSpelling ∧ ofJson utilSpelling = .ok utilRule := by
  have features : ∀ l ∈ utilRule.levels, l.IsFeatureRelease := by decide
  exact ⟨rfl, features, varies_utilSpelling,
    (encoding_read_back features).2.2 utilSpelling varies_utilSpelling⟩

end Rule

end WorkspaceSync
