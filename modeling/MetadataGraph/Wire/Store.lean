import MetadataGraph.Store
import MetadataGraph.Store.Options
import MetadataGraph.Wire.Instance

/-!
# Wire forms of the store

The wire forms of statements, of what a store answers and of its options.
-/

namespace MetadataGraph.Wire

instance : FromWire Guard where
  decode
    | .object [("version", version)] => do return .version (← decode version)
    | json =>
      choice [("ANY", .always), ("ABSENT", .absent), ("NO_FULL_ENTITY", .noFullEntity)] json

/-- A put may be named for what its guard demands. -/
instance : FromWire Statement where
  decode json := do
    if has json "create" then return .create (← get json "create")
    if has json "replace" then return .replace (← get json "prior") (← get json "replace")
    if has json "overwrite" then return .overwrite (← get json "overwrite")
    if has json "put_proxy" then return .putProxy (← get json "put_proxy")
    if has json "evict" then return .evict (← get json "evict")
    return .put (← get json "put") (← get json "guard")

instance : ToWire Receipt where
  encode receipt :=
    .object [("tx_id", encode receipt.id), ("valid_time", encode receipt.validTime),
      ("transaction_time", encode receipt.transactionTime),
      ("statements", encode receipt.statements)]

instance : ToWire (Revision Record) where
  encode revision :=
    .object [("record", encode revision.data), ("valid_time", encode revision.validTime),
      ("transaction_time", encode revision.transactionTime),
      ("valid_until", encode revision.validUntil)]

instance : ToWire Hop where
  encode hop :=
    .object [("relationship", encode hop.relationship), ("neighbor", encode hop.neighbor)]

/-! ## Options -/

/-- The form of a family with its tuning. -/
def encodeFamily (options : StorageOptions) (family : StorageFamily) : Json :=
  .object [("name", encode family.name), ("point", encode family.isPointLookup),
    ("write_buffer", encode (options.writeBufferSize family)),
    ("bloom", encode (options.bloomBits family)),
    ("compressed", encode (options.compresses family))]

/-- The form of options: each of them, the tuning of every family and whether the options pass. -/
def encodeOptions (options : StorageOptions) : Json :=
  .object [("path", encode options.path), ("create_if_missing", encode options.createIfMissing),
    ("revision_write_buffer_size", encode options.revisionWriteBufferSize),
    ("index_write_buffer_size", encode options.indexWriteBufferSize),
    ("max_write_buffer_number", encode options.maxWriteBufferNumber),
    ("max_background_jobs", encode options.maxBackgroundJobs),
    ("block_cache_size", encode options.blockCacheSize),
    ("bloom_bits_per_key", encode options.bloomBitsPerKey),
    ("compress_revisions", encode options.compressRevisions),
    ("sync_commits", encode options.syncCommits),
    ("families", .ofList (encodeFamily options) StorageFamily.all),
    ("validate", encodeOutcome options.check)]

/-- The density of a filter, which may be given as an integer too. -/
def decodeDensity (json : Json) : Decode (Option Binary64) := do
  let density : Value ← decode json
  if density.isNull then return none
  match density.float? with
  | some bits => return some bits
  | none => malformed

/-- Options with some of them changed. -/
def decodeOptions (given : StorageOptions) (json : Json) : Decode StorageOptions := do
  let usual := if has json "require_existing" then given.requireExisting else given
  return {
    path := ← getD json "path" usual.path
    createIfMissing := ← getD json "create_if_missing" usual.createIfMissing
    revisionWriteBufferSize :=
      ← getD json "revision_write_buffer_size" usual.revisionWriteBufferSize
    indexWriteBufferSize := ← getD json "index_write_buffer_size" usual.indexWriteBufferSize
    maxWriteBufferNumber := ← getD json "max_write_buffer_number" usual.maxWriteBufferNumber
    maxBackgroundJobs := ← getD json "max_background_jobs" usual.maxBackgroundJobs
    blockCacheSize := ← getD json "block_cache_size" usual.blockCacheSize
    bloomBitsPerKey :=
      ← if has json "bloom_filter" then decodeDensity (part json "bloom_filter")
        else pure usual.bloomBitsPerKey
    compressRevisions := ← getD json "compress_revisions" usual.compressRevisions
    syncCommits := ← getD json "sync_commits" usual.syncCommits }

end MetadataGraph.Wire
