import WorkspaceSync.StateFile.Codec
import WorkspaceSync.Sync.Engine

/-!
# The format of state files

A state file is the length of a header in four bytes, the header and the encoding of a sync state.
The header identifies the format and holds the hash of what follows. A file that is not as its
header says holds no state. What follows a complete header or a complete state does not count.
-/

namespace WorkspaceSync

namespace Codec

def filePath : Codec FilePath := text.via FilePath.text fun s => some ⟨s⟩

def label : Codec Label := text.via Label.text fun s => (Label.parse s).toOption

def languageLevel : Codec LanguageLevel := text.via LanguageLevel.text LanguageLevel.parse?

def libraryKey : Codec LibraryKey := text.via LibraryKey.text fun s => some ⟨s⟩

def contentHash : Codec ContentHash :=
  (raw 16).via ContentHash.toBytes fun b => some (.ofWords b)

/-- The number of the kind, and the signature. -/
def fileSignature : Codec FileSignature where
  encode
    | .metadata size modified => encodeNatural 0 ++ (pair word64 word128).encode (size, modified)
    | .content hash => encodeNatural 1 ++ contentHash.encode hash
  decode b :=
    match decodeNatural 4 b with
    | some (0, rest) =>
      ((pair word64 word128).decode rest).map fun ((size, modified), rest) =>
        (.metadata size modified, rest)
    | some (1, rest) => (contentHash.decode rest).map fun (hash, rest) => (.content hash, rest)
    | _ => none

def manifestIndex : Codec ManifestIndex :=
  (pair (table filePath fileSignature) (pair (table filePath label) (table label (list text)))).via
    (fun i => (i.snapshot, i.owners, i.dependencies)) fun (s, o, d) => some ⟨s, o, d⟩

def artifactLocation : Codec ArtifactLocation :=
  (pair text (pair text flag)).via (fun a => (a.rootFragment, a.relativePath, a.isSource))
    fun (r, p, s) => some ⟨r, p, s⟩

def libraryArtifact : Codec LibraryArtifact :=
  (pair artifactLocation (pair (optional artifactLocation) (optional artifactLocation))).via
    (fun a => (a.jar, a.runtimeJar, a.sourceJar)) fun (j, r, s) => some ⟨j, r, s⟩

def library : Codec Library :=
  (pair libraryKey libraryArtifact).via (fun l => (l.key, l.artifact)) fun (k, a) => some ⟨k, a⟩

def sourceFolder : Codec SourceFolder :=
  (pair filePath (pair text flag)).via (fun f => (f.directory, f.packagePrefix, f.isTest))
    fun (d, p, t) => some ⟨d, p, t⟩

def contentEntry : Codec ContentEntry :=
  (pair filePath (pair (list sourceFolder) (list filePath))).via
    (fun e => (e.root, e.folders, e.excludes)) fun (r, f, x) => some ⟨r, f, x⟩

def importResult : Codec ImportResult :=
  (pair (list contentEntry) (pair (table libraryKey library)
    (pair (set filePath) (pair (set filePath) (optional languageLevel))))).via
    (fun r => (r.contentEntries, r.libraries, r.outputJars, r.javaSources, r.sourceVersion))
    fun (e, l, o, j, v) => some ⟨e, l, o, j, v⟩

def javaModel : Codec JavaModel :=
  (pair importResult (pair (list text) (pair flag (table libraryKey library)))).via
    (fun m => (m.imported, m.excludedLibraries, m.attachSourceJars, m.attachedLibraries))
    fun (i, x, s, a) => some ⟨i, x, s, a⟩

def syncState : Codec SyncState :=
  (pair (optional manifestIndex) (optional javaModel)).via (fun s => (s.manifests, s.java))
    fun (m, j) => some ⟨m, j⟩

end Codec

structure StateHeader where
  magic : Bytes
  schemaVersion : UInt32
  /-- The version of the program that wrote the file. -/
  toolVersion : String
  /-- The hash of what follows the header. -/
  checksum : ContentHash
  deriving DecidableEq

namespace StateHeader

/-- The letters `BSYN`. -/
def stateMagic : Bytes := [0x42, 0x53, 0x59, 0x4E]

def currentSchema : UInt32 := 1

def codec : Codec StateHeader :=
  (Codec.pair (Codec.raw 4) (Codec.pair Codec.word32
    (Codec.pair Codec.text Codec.contentHash))).via
    (fun h => (h.magic, h.schemaVersion, h.toolVersion, h.checksum))
    fun (m, v, t, c) => some ⟨m, v, t, c⟩

/-- The header that goes before a payload. -/
def ofPayload (toolVersion : String) (payload : Bytes) : StateHeader :=
  ⟨stateMagic, currentSchema, toolVersion, ContentHash.ofBytes payload⟩

/-- Whether a header announces the payload that follows it. -/
def announces (h : StateHeader) (payload : Bytes) : Bool :=
  h.magic = stateMagic && h.schemaVersion = currentSchema &&
    ContentHash.ofBytes payload = h.checksum

end StateHeader

namespace StateFile

/-- The content of a state file. -/
def encode (toolVersion : String) (s : SyncState) : Bytes :=
  let payload := Codec.syncState.encode s
  let header := StateHeader.codec.encode (.ofPayload toolVersion payload)
  Codec.littleEndian 4 header.length ++ header ++ payload

/-- A header and a payload. -/
def split (b : Bytes) : Option (StateHeader × Bytes) :=
  match Codec.readLittleEndian 4 b with
  | none => none
  | some (n, body) =>
    if body.length < n then none
    else (StateHeader.codec.decode (body.take n)).map fun (h, _) => (h, body.drop n)

/-- The state that a file holds, if it holds one. -/
def decode (b : Bytes) : Option SyncState :=
  match split b with
  | none => none
  | some (h, payload) =>
    if h.announces payload then (Codec.syncState.decode payload).map (·.1) else none

end StateFile

end WorkspaceSync
