import WorkspaceSync.Json.Decode
import WorkspaceSync.Library
import WorkspaceSync.Rule

/-!
# Rules in JSON

The encoding of rules and of what they are made of, and its decoders. A payload is tagged by its
kind; a kind that is not known makes a payload without content.
-/

namespace WorkspaceSync

open Json (Decoder DecodeError Member Place Record Shape)

namespace Label

def decoder : Decoder Label := Decoder.parsed parse LabelError.message

def toJson (l : Label) : Json := .string l.text

end Label

namespace LanguageLevel

def decoder : Decoder LanguageLevel := Decoder.parsed parse ParseError.message

def toJson (l : LanguageLevel) : Json := .string l.text

end LanguageLevel

namespace WorkspacePath

def decoder : Decoder WorkspacePath := Decoder.parsed parse WorkspacePathError.message

def toJson (p : WorkspacePath) : Json := .string p.text

end WorkspacePath

/-- A value, or `null` where there is none. -/
def Json.ofOption {α : Type} (f : α → Json) : Option α → Json
  | none => .null
  | some a => f a

def Json.ofList {α : Type} (f : α → Json) (l : List α) : Json := .array (l.map f)

namespace ArtifactLocation

def shape : Shape :=
  ⟨"ArtifactLocation",
    [.ofDecoder "root_execution_path_fragment" false Decoder.text,
     .ofDecoder "relative_path" true Decoder.text,
     .ofDecoder "is_source" false Decoder.boolean]⟩

def ofRecord (r : Record) : Option ArtifactLocation := do
  let path ← r.get? "relative_path" Decoder.text
  return {
    rootFragment := (r.get? "root_execution_path_fragment" Decoder.text).getD ""
    relativePath := path
    isSource := (r.get? "is_source" Decoder.boolean).getD false }

def decoder : Decoder ArtifactLocation := .ofShape shape ofRecord

def toJson (a : ArtifactLocation) : Json :=
  .object [
    ("root_execution_path_fragment", .string a.rootFragment),
    ("relative_path", .string a.relativePath),
    ("is_source", .bool a.isSource)]

end ArtifactLocation

namespace LibraryArtifact

def shape : Shape :=
  ⟨"LibraryArtifact",
    [.ofDecoder "jar" true ArtifactLocation.decoder,
     .ofDecoder "runtime_jar" false ArtifactLocation.decoder.optional,
     .ofDecoder "source_jar" false ArtifactLocation.decoder.optional]⟩

def ofRecord (r : Record) : Option LibraryArtifact := do
  let jar ← r.get? "jar" ArtifactLocation.decoder
  return {
    jar
    runtimeJar := (r.get? "runtime_jar" ArtifactLocation.decoder.optional).join
    sourceJar := (r.get? "source_jar" ArtifactLocation.decoder.optional).join }

def decoder : Decoder LibraryArtifact := .ofShape shape ofRecord

def toJson (l : LibraryArtifact) : Json :=
  .object [
    ("jar", l.jar.toJson),
    ("runtime_jar", Json.ofOption ArtifactLocation.toJson l.runtimeJar),
    ("source_jar", Json.ofOption ArtifactLocation.toJson l.sourceJar)]

end LibraryArtifact

namespace JavaInfo

def shape : Shape :=
  ⟨"JavaRuleIdeInfo",
    [.ofDecoder "jars" false LibraryArtifact.decoder.list,
     .ofDecoder "generated_jars" false LibraryArtifact.decoder.list,
     .ofDecoder "package_manifest" false ArtifactLocation.decoder.optional,
     .ofDecoder "jdeps" false ArtifactLocation.decoder.optional,
     .ofDecoder "source_version" false LanguageLevel.decoder.optional]⟩

def ofRecord (r : Record) : Option JavaInfo :=
  some {
    jars := (r.get? "jars" LibraryArtifact.decoder.list).getD []
    generatedJars := (r.get? "generated_jars" LibraryArtifact.decoder.list).getD []
    packageManifest := (r.get? "package_manifest" ArtifactLocation.decoder.optional).join
    dependencyManifest := (r.get? "jdeps" ArtifactLocation.decoder.optional).join
    sourceVersion := (r.get? "source_version" LanguageLevel.decoder.optional).join }

def decoder : Decoder JavaInfo := .ofShape shape ofRecord

def jsonMembers (j : JavaInfo) : List (String × Json) :=
  [("jars", Json.ofList LibraryArtifact.toJson j.jars),
   ("generated_jars", Json.ofList LibraryArtifact.toJson j.generatedJars),
   ("package_manifest", Json.ofOption ArtifactLocation.toJson j.packageManifest),
   ("jdeps", Json.ofOption ArtifactLocation.toJson j.dependencyManifest),
   ("source_version", Json.ofOption LanguageLevel.toJson j.sourceVersion)]

end JavaInfo

namespace ToolchainInfo

def shape : Shape :=
  ⟨"JavaToolchainIdeInfo",
    [.ofDecoder "source_version" true LanguageLevel.decoder,
     .ofDecoder "target_version" false LanguageLevel.decoder.optional]⟩

def ofRecord (r : Record) : Option ToolchainInfo := do
  let sourceVersion ← r.get? "source_version" LanguageLevel.decoder
  return {
    sourceVersion
    targetVersion := (r.get? "target_version" LanguageLevel.decoder.optional).join }

def decoder : Decoder ToolchainInfo := .ofShape shape ofRecord

def jsonMembers (t : ToolchainInfo) : List (String × Json) :=
  [("source_version", t.sourceVersion.toJson),
   ("target_version", Json.ofOption LanguageLevel.toJson t.targetVersion)]

end ToolchainInfo

namespace Payload

/-- The kinds of payload that have content, and the one that stands for all others. -/
inductive Tag where
  | java
  | javaToolchain
  | other
  deriving DecidableEq

def Tag.ofName (name : String) : Tag :=
  if name = "java" then .java
  else if name = "java_toolchain" then .javaToolchain
  else .other

def decodeTag : Json → Except DecodeError Tag
  | .string s => .ok (.ofName s)
  | j => Json.mismatch j "variant identifier"

/-- Decodes the content that goes with a tag. -/
def decodeContent (content : Json) : Tag → Except DecodeError Payload
  | .java => (JavaInfo.decoder .tagged content).map .java
  | .javaToolchain => (ToolchainInfo.decoder .tagged content).map .javaToolchain
  | .other =>
    match content with
    | .array items =>
      if items.isEmpty then .ok .unrecognized
      else .error (.invalidLength items.length "0 elements in sequence")
    | _ => .ok .unrecognized

def decoder : Decoder Payload
  | _, .object members =>
    match Json.member? "kind" members with
    | none => .error (.missingField "kind")
    | some tag => decodeTag tag >>= decodeContent (.object (members.filter (·.1 ≠ "kind")))
  | _, .array (tag :: content) => decodeTag tag >>= decodeContent (.array content)
  | _, .array [] => .error (.missingField "kind")
  | _, j => Json.mismatch j "internally tagged enum RulePayload"

def toJson : Payload → Json
  | java j => .object (("kind", .string "java") :: j.jsonMembers)
  | javaToolchain t => .object (("kind", .string "java_toolchain") :: t.jsonMembers)
  | unrecognized => .object [("kind", .string "unrecognized")]

end Payload

namespace Rule

def shape : Shape :=
  ⟨"RuleIdeInfo",
    [.ofDecoder "label" true Label.decoder,
     .ofDecoder "kind" true Decoder.text,
     .ofDecoder "sources" false ArtifactLocation.decoder.list,
     .ofDecoder "dependencies" false Label.decoder.list,
     .ofDecoder "payload" false Payload.decoder.optional]⟩

def ofRecord (r : Record) : Option Rule := do
  let label ← r.get? "label" Label.decoder
  let kind ← r.get? "kind" Decoder.text
  return {
    label, kind
    sources := (r.get? "sources" ArtifactLocation.decoder.list).getD []
    dependencies := (r.get? "dependencies" Label.decoder.list).getD []
    payload := (r.get? "payload" Payload.decoder.optional).join }

def decoder : Decoder Rule := .ofShape shape ofRecord

def ofJson (j : Json) : Except DecodeError Rule := decoder .document j

def toJson (r : Rule) : Json :=
  .object [
    ("label", r.label.toJson),
    ("kind", .string r.kind),
    ("sources", Json.ofList ArtifactLocation.toJson r.sources),
    ("dependencies", Json.ofList Label.toJson r.dependencies),
    ("payload", Json.ofOption Payload.toJson r.payload)]

end Rule

namespace Library

def toJson (l : Library) : Json :=
  .object [("key", .string l.key.text), ("library_artifact", l.artifact.toJson)]

end Library

end WorkspaceSync
