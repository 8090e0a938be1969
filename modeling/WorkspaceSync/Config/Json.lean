import WorkspaceSync.Config.Basic
import WorkspaceSync.Rule.Json

/-!
# Configurations in JSON

The encoding of a configuration, section by section; every setting is written, chosen or not.
-/

namespace WorkspaceSync

def SignatureMode.name : SignatureMode → String
  | metadata => "metadata"
  | content => "content"

def ProjectSection.toJson (p : ProjectSection) : Json :=
  .object [
    ("directories", Json.ofList WorkspacePath.toJson p.directories),
    ("exclude_directories", Json.ofList WorkspacePath.toJson p.excludeDirectories)]

def JavaSection.toJson (j : JavaSection) : Json :=
  .object [
    ("language_level", Json.ofOption LanguageLevel.toJson j.languageLevel),
    ("exclude_library", Json.ofList .string j.excludeLibrary),
    ("attach_source_jars_by_default", .bool j.attachSourceJars)]

def SyncSection.toJson (s : SyncSection) : Json :=
  .object [
    ("use_working_set", .bool s.useWorkingSet),
    ("manifest_signature", .string s.manifestSignature.name),
    ("parallelism", .number (.natural s.parallelism)),
    ("prune_unused_libraries", .bool s.pruneUnusedLibraries)]

def SyncConfig.toJson (c : SyncConfig) : Json :=
  .object [
    ("project", c.project.toJson),
    ("java", c.java.toJson),
    ("sync", c.sync.toJson)]

end WorkspaceSync
