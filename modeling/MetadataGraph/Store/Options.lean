import MetadataGraph.Error

/-!
# Storage options

The tuning of a persistent store. Its data is split into families with different access patterns:
revisions are written often and scanned by identity, the newest revisions and the store's metadata
are read by exact key, the two indexes are small and only scanned.
-/

namespace MetadataGraph

/-- A family of a persistent store. -/
inductive StorageFamily where
  /-- Every revision of every identity. -/
  | revisions
  /-- The time of the newest revision of every identity. -/
  | latest
  /-- The relationships at every entity. -/
  | adjacency
  /-- The instances of every type. -/
  | typeIndex
  /-- The clock and other facts about the store. -/
  | metadata
  deriving DecidableEq

namespace StorageFamily

/-- Every family. -/
def all : List StorageFamily := [revisions, latest, adjacency, typeIndex, metadata]

/-- The family's name. -/
def name : StorageFamily → String
  | revisions => "revisions"
  | latest => "latest"
  | adjacency => "adjacency"
  | typeIndex => "type_index"
  | metadata => "meta"

/-- Whether the family is read by exact key. -/
def isPointLookup (family : StorageFamily) : Bool := family = latest || family = metadata

end StorageFamily

/-- The tuning of a persistent store. -/
structure StorageOptions where
  /-- The directory of the database. -/
  path : String
  /-- Whether a missing database is created. -/
  createIfMissing : Bool
  /-- The write buffer of the revisions, in bytes. -/
  revisionWriteBufferSize : UInt64
  /-- The write buffer of each other family, in bytes. -/
  indexWriteBufferSize : UInt64
  /-- The write buffers per family before writes wait. -/
  maxWriteBufferNumber : Int32
  /-- The threads that flush and compact. -/
  maxBackgroundJobs : Int32
  /-- The cache that all families share, in bytes. -/
  blockCacheSize : UInt64
  /-- The density of the filters of the families that are read by exact key; none for no filters. -/
  bloomBitsPerKey : Option Binary64
  /-- Whether revisions are compressed. -/
  compressRevisions : Bool
  /-- Whether a commit waits until its log is on disk. -/
  syncCommits : Bool
  deriving DecidableEq

namespace StorageOptions

/-- A number of bytes given in units of `2 ^ 20`. -/
def mebibytes (count : UInt64) : UInt64 := count * 1048576

/-- The usual density of filters. -/
def usualBloomBits : Binary64 := .ofNat 10

/-- The usual options for a database in a directory. -/
def usual (path : String) : StorageOptions where
  path
  createIfMissing := true
  revisionWriteBufferSize := mebibytes 32
  indexWriteBufferSize := mebibytes 8
  maxWriteBufferNumber := 3
  maxBackgroundJobs := 4
  blockCacheSize := mebibytes 128
  bloomBitsPerKey := some usualBloomBits
  compressRevisions := true
  syncCommits := false

instance : Inhabited StorageOptions := ⟨usual "./strata-data"⟩

/-- Small buffers and no waiting, for databases that are thrown away. -/
def testing (path : String) : StorageOptions where
  path
  createIfMissing := true
  revisionWriteBufferSize := mebibytes 4
  indexWriteBufferSize := mebibytes 1
  maxWriteBufferNumber := 2
  maxBackgroundJobs := 2
  blockCacheSize := mebibytes 8
  bloomBitsPerKey := some usualBloomBits
  compressRevisions := false
  syncCommits := false

/-- Large buffers, compressed history and commits that wait for the disk. -/
def production (path : String) : StorageOptions where
  path
  createIfMissing := true
  revisionWriteBufferSize := mebibytes 64
  indexWriteBufferSize := mebibytes 16
  maxWriteBufferNumber := 4
  maxBackgroundJobs := 4
  blockCacheSize := mebibytes 512
  bloomBitsPerKey := some usualBloomBits
  compressRevisions := true
  syncCommits := true

/-- The options of a store that must exist already. -/
def requireExisting (options : StorageOptions) : StorageOptions :=
  { options with createIfMissing := false }

/-- The write buffer of a family, in bytes. -/
def writeBufferSize (options : StorageOptions) (family : StorageFamily) : UInt64 :=
  if family = .revisions then options.revisionWriteBufferSize else options.indexWriteBufferSize

/-- The density of a family's filter, if it has one. -/
def bloomBits (options : StorageOptions) (family : StorageFamily) : Option Binary64 :=
  if family.isPointLookup then options.bloomBitsPerKey else none

/-- Whether a family is compressed. -/
def compresses (options : StorageOptions) (family : StorageFamily) : Bool :=
  options.compressRevisions && family = .revisions

/-- Whether a density is a positive number. -/
def isUsableDensity (bits : Binary64) : Bool :=
  bits.compare? .zero == some .gt && !bits.isInfinite

/-- Refuse options that no store can be opened with. -/
def check (options : StorageOptions) : Outcome Unit := do
  .require (options.revisionWriteBufferSize ≠ 0 && options.indexWriteBufferSize ≠ 0)
    (.invalidParameter .emptyWriteBuffer)
  .require (1 ≤ options.maxWriteBufferNumber && 1 ≤ options.maxBackgroundJobs)
    (.invalidParameter .tooFewBuffersOrJobs)
  match options.bloomBitsPerKey with
  | none => .ok ()
  | some bits => .require (isUsableDensity bits) (.invalidParameter (.filterBits bits))

end StorageOptions

end MetadataGraph
