import WorkspaceSync.LibraryDiff
import WorkspaceSync.ProjectModel
import WorkspaceSync.Rule.Json

/-!
# The project model in JSON

The encoding of what a sync hands to an editor. A table of libraries is an object by key; files
are written as the texts of their paths, in the order in which they are kept.
-/

namespace WorkspaceSync

namespace Json

def ofPaths (l : List FilePath) : Json := ofList (fun p => .string p.text) l

def ofLibraries (t : LibraryTable) : Json :=
  .object (t.entries.map fun (k, l) => (k.text, l.toJson))

end Json

namespace SourceFolder

def toJson (f : SourceFolder) : Json :=
  .object [
    ("directory", .string f.directory.text),
    ("package_prefix", .string f.packagePrefix),
    ("is_test", .bool f.isTest)]

end SourceFolder

namespace ContentEntry

def toJson (e : ContentEntry) : Json :=
  .object [
    ("content_root", .string e.root.text),
    ("sources", Json.ofList SourceFolder.toJson e.folders),
    ("excludes", Json.ofPaths e.excludes)]

end ContentEntry

namespace ImportResult

def toJson (r : ImportResult) : Json :=
  .object [
    ("content_entries", Json.ofList ContentEntry.toJson r.contentEntries),
    ("libraries", Json.ofLibraries r.libraries),
    ("build_output_jars", Json.ofPaths (SortedSet.toList r.outputJars)),
    ("java_source_files", Json.ofPaths (SortedSet.toList r.javaSources)),
    ("source_version", Json.ofOption LanguageLevel.toJson r.sourceVersion)]

end ImportResult

namespace JavaModel

def toJson (m : JavaModel) : Json :=
  .object [
    ("import_result", m.imported.toJson),
    ("excluded_libraries", Json.ofList .string m.excludedLibraries),
    ("attach_source_jars_by_default", .bool m.attachSourceJars),
    ("attached_libraries", Json.ofLibraries m.attachedLibraries)]

end JavaModel

namespace LibraryDiff

def toJson (d : LibraryDiff) : Json :=
  .object [
    ("to_add", Json.ofList Library.toJson d.toAdd),
    ("to_remove", Json.ofList Library.toJson d.toRemove),
    ("unchanged", Json.ofList Library.toJson d.unchanged),
    ("is_empty", .bool d.isEmpty)]

end LibraryDiff

end WorkspaceSync
