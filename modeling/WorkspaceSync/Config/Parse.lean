import WorkspaceSync.Config.Basic
import WorkspaceSync.FileSystem.Error
import WorkspaceSync.Toml.Decode
import WorkspaceSync.Toml.Parse

/-!
# Reading the configuration

The configuration is a TOML document of three sections, all of which may be missing. What a document
does not say keeps its default; what it says beyond that is refused.
-/

namespace WorkspaceSync

open Toml (Decoder Field Section)

namespace ProjectSection

def directory : Decoder WorkspacePath :=
  .parsed WorkspacePath.parse WorkspacePathError.message

def format : Section ProjectSection where
  name := "ProjectSection"
  fields := [
    .ofDecoder "directories" directory.list fun s a => { s with directories := a },
    .ofDecoder "exclude_directories" directory.list fun s a =>
      { s with excludeDirectories := a }]
  default := default

end ProjectSection

namespace JavaSection

def format : Section JavaSection where
  name := "JavaSection"
  fields := [
    .ofDecoder "language_level" (.parsed LanguageLevel.parse LanguageLevel.ParseError.message)
      fun s a => { s with languageLevel := some a },
    .ofDecoder "exclude_library" Decoder.text.list fun s a => { s with excludeLibrary := a },
    .ofDecoder "attach_source_jars_by_default" .boolean fun s a =>
      { s with attachSourceJars := a }]
  default := default

end JavaSection

namespace SyncSection

def format : Section SyncSection where
  name := "SyncSection"
  fields := [
    .ofDecoder "use_working_set" .boolean fun s a => { s with useWorkingSet := a },
    .ofDecoder "manifest_signature"
      (.variant [("metadata", SignatureMode.metadata), ("content", SignatureMode.content)])
      fun s a => { s with manifestSignature := a },
    .ofDecoder "parallelism" .natural fun s a => { s with parallelism := a },
    .ofDecoder "prune_unused_libraries" .boolean fun s a => { s with pruneUnusedLibraries := a }]
  default := default

end SyncSection

/-- Why there is no configuration. -/
inductive ConfigError where
  | unreadable (e : IoError)
  | syntaxError
  | undecodable (e : Toml.DecodeError)
  | invalid (p : ConfigProblem)
  deriving DecidableEq

namespace ConfigError

def message : ConfigError → String
  | unreadable e => s!"failed to read configuration: {e.message}"
  | syntaxError => "failed to parse configuration: TOML parse error"
  | undecodable e =>
    "failed to parse configuration: TOML parse error" ++ (e.message?.map ("\n" ++ ·)).getD ""
  | invalid p => p.message

end ConfigError

namespace SyncConfig

def format : Section SyncConfig where
  name := "SyncConfig"
  fields := [
    .ofDecoder "project" ProjectSection.format.decoder fun s a => { s with project := a },
    .ofDecoder "java" JavaSection.format.decoder fun s a => { s with java := a },
    .ofDecoder "sync" SyncSection.format.decoder fun s a => { s with sync := a }]
  default := default

/-- The name of the configuration file in a workspace. -/
def fileName : String := "bsync.toml"

/-- Reads and validates a configuration. -/
def parse (document : String) : Except ConfigError SyncConfig := do
  let some t := Toml.parse document | throw .syntaxError
  let config ← (format.ofTable t).mapError .undecodable
  config.validate.mapError .invalid
  return config

end SyncConfig

end WorkspaceSync
