import WorkspaceSync.Artifact
import WorkspaceSync.Bytes
import WorkspaceSync.Cancellation
import WorkspaceSync.CommandLine.Arguments
import WorkspaceSync.CommandLine.Console
import WorkspaceSync.CommandLine.Options
import WorkspaceSync.CommandLine.Run
import WorkspaceSync.Config.Basic
import WorkspaceSync.Config.Json
import WorkspaceSync.Config.Parse
import WorkspaceSync.ContentHash
import WorkspaceSync.Decimal.Binary64
import WorkspaceSync.DependencyManifest
import WorkspaceSync.Diagnostic.Basic
import WorkspaceSync.Diagnostic.Log
import WorkspaceSync.Diagnostic.Render
import WorkspaceSync.Exclusions
import WorkspaceSync.FilePath
import WorkspaceSync.FileSystem.Access
import WorkspaceSync.FileSystem.Disk
import WorkspaceSync.FileSystem.Error
import WorkspaceSync.FileSystem.View
import WorkspaceSync.Glob
import WorkspaceSync.Import.Basic
import WorkspaceSync.Import.ContentEntries
import WorkspaceSync.Import.Libraries
import WorkspaceSync.Import.Target
import WorkspaceSync.Json.Basic
import WorkspaceSync.Json.Decode
import WorkspaceSync.Json.Parse
import WorkspaceSync.Json.Printer
import WorkspaceSync.Json.Token
import WorkspaceSync.Label
import WorkspaceSync.LanguageLevel
import WorkspaceSync.Library
import WorkspaceSync.LibraryDiff
import WorkspaceSync.Main
import WorkspaceSync.ManifestIndex.Basic
import WorkspaceSync.ManifestIndex.Load
import WorkspaceSync.PackageManifest
import WorkspaceSync.ProjectModel
import WorkspaceSync.ProjectModel.Json
import WorkspaceSync.Proofs.Cancellation
import WorkspaceSync.Proofs.CommandLine.History
import WorkspaceSync.Proofs.CommandLine.Persistence
import WorkspaceSync.Proofs.DependencyManifest
import WorkspaceSync.Proofs.Except
import WorkspaceSync.Proofs.FileSystem.Disk
import WorkspaceSync.Proofs.FileSystem.Entries
import WorkspaceSync.Proofs.FileSystem.Faults
import WorkspaceSync.Proofs.Fold
import WorkspaceSync.Proofs.Import.Pruning
import WorkspaceSync.Proofs.Label
import WorkspaceSync.Proofs.LanguageLevel
import WorkspaceSync.Proofs.LibraryDiff
import WorkspaceSync.Proofs.ManifestIndex.Entry
import WorkspaceSync.Proofs.ManifestIndex.History
import WorkspaceSync.Proofs.ManifestIndex.Links
import WorkspaceSync.Proofs.ManifestIndex.Load
import WorkspaceSync.Proofs.ManifestIndex.Outcomes
import WorkspaceSync.Proofs.ManifestIndex.Owners
import WorkspaceSync.Proofs.ManifestIndex.Reload
import WorkspaceSync.Proofs.RuleMap
import WorkspaceSync.Proofs.SnapshotDiff
import WorkspaceSync.Proofs.SortedMap
import WorkspaceSync.Proofs.StateFile.Codec
import WorkspaceSync.Proofs.StateFile.Failures
import WorkspaceSync.Proofs.StateFile.Format
import WorkspaceSync.Proofs.StateFile.Store
import WorkspaceSync.Proofs.Sync.Attachment
import WorkspaceSync.Proofs.Sync.Cancellation
import WorkspaceSync.Proofs.Sync.Exclusions
import WorkspaceSync.Proofs.Sync.Fresh
import WorkspaceSync.Proofs.Sync.Replay
import WorkspaceSync.Proofs.Sync.Resync
import WorkspaceSync.Proofs.Sync.Run
import WorkspaceSync.Proofs.Wire.Grammar
import WorkspaceSync.Proofs.Wire.RoundTrip
import WorkspaceSync.Proofs.Wire.Varint
import WorkspaceSync.Rule
import WorkspaceSync.Rule.Json
import WorkspaceSync.RuleMap
import WorkspaceSync.Snapshot.Basic
import WorkspaceSync.Snapshot.Diff
import WorkspaceSync.SortedMap
import WorkspaceSync.SourceRoots
import WorkspaceSync.StateFile.Codec
import WorkspaceSync.StateFile.Format
import WorkspaceSync.StateFile.Store
import WorkspaceSync.Sync.Attachment
import WorkspaceSync.Sync.Engine
import WorkspaceSync.Text.Blank
import WorkspaceSync.Text.Numeral
import WorkspaceSync.Text.Quoted
import WorkspaceSync.Text.Segments
import WorkspaceSync.Text.Unprintable
import WorkspaceSync.Toml.Basic
import WorkspaceSync.Toml.Decode
import WorkspaceSync.Toml.Parse
import WorkspaceSync.Toml.Scalar
import WorkspaceSync.Wire.Basic
import WorkspaceSync.Wire.Reader
import WorkspaceSync.Wire.Record
import WorkspaceSync.Wire.Writer
import WorkspaceSync.WorkingSet
import WorkspaceSync.WorkspacePath
import WorkspaceSync.Proofs.Text.Segments
import WorkspaceSync.Proofs.WorkspacePath
import WorkspaceSync.Proofs.FilePath
import WorkspaceSync.Proofs.SourceRoots.Package
import WorkspaceSync.Proofs.SourceRoots.Merge
import WorkspaceSync.Proofs.SourceRoots.Calculate
import WorkspaceSync.Proofs.Import.Deduplication
import WorkspaceSync.Proofs.Import.ImportDirectory
import WorkspaceSync.Proofs.Import.ContentTable
import WorkspaceSync.Proofs.Import.ContentEntries
import WorkspaceSync.Proofs.SourceRoots.Openings
import WorkspaceSync.Proofs.SourceRoots.Flags
import WorkspaceSync.Proofs.SourceRoots.Order
import WorkspaceSync.Proofs.Import.TestFolders
import WorkspaceSync.Proofs.Import.Libraries
import WorkspaceSync.Proofs.Import.Growth
import WorkspaceSync.Proofs.ManifestIndex.MergeOrder
import WorkspaceSync.Proofs.PackageManifest
import WorkspaceSync.Proofs.Snapshot.Partition
import WorkspaceSync.Proofs.Wire.Interleaving
import WorkspaceSync.Proofs.Wire.Keys
import WorkspaceSync.Proofs.LibraryDiff.Algebra
import WorkspaceSync.Proofs.Json.RoundTrip
import WorkspaceSync.Proofs.Json.Variation
import WorkspaceSync.Proofs.Rule.Encoding
import WorkspaceSync.Proofs.RuleMap.Elements
import WorkspaceSync.Proofs.ManifestIndex.FailedTargets
import WorkspaceSync.Proofs.Label.Spelling
import WorkspaceSync.Proofs.WorkspacePath.Segments
import WorkspaceSync.Proofs.LibraryKey
import WorkspaceSync.Proofs.Sync.DeployJars
import WorkspaceSync.Proofs.Artifact
import WorkspaceSync.Proofs.WorkspaceRoot
import WorkspaceSync.Proofs.Import.SourceFiles
import WorkspaceSync.Proofs.Import.DirectoryOrder
import WorkspaceSync.Proofs.ContentHash
import WorkspaceSync.Proofs.Wire.Progress
import WorkspaceSync.Proofs.Wire.Cursor
import WorkspaceSync.Proofs.SourceRoots.Irredundant
import WorkspaceSync.Proofs.Import.Clipping
import WorkspaceSync.Proofs.ManifestIndex.Relabelling
import WorkspaceSync.Proofs.Wire.Base128
import WorkspaceSync.Proofs.LanguageLevel.Restored
import WorkspaceSync.Proofs.Config
import WorkspaceSync.Proofs.Rule.Levels
import WorkspaceSync.Proofs.Sync.Levels
