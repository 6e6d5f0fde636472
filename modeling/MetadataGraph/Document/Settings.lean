import MetadataGraph.Collection.Config
import MetadataGraph.Document.Form
import MetadataGraph.Store.Options

/-!
# Documents of settings

The document forms of the configuration of a collection and of the options of a store. A part that
is missing has its usual value.
-/

namespace MetadataGraph

namespace DocumentForm

instance : DocumentForm CollectionConfig where
  write config :=
    .object [
      ("collection_id", write config.id),
      ("collection_name", write config.name),
      ("max_page_size", write config.maxPageSize),
      ("default_page_size", write config.defaultPageSize),
      ("max_traversal_depth", write config.maxTraversalDepth)]
  read room json := do
    let usual : CollectionConfig := default
    let parts ← Parts.ofPartialJson?
      ["collection_id", "collection_name", "max_page_size", "default_page_size",
        "max_traversal_depth"] room json
    return {
      id := ← parts.getD "collection_id" usual.id
      name := ← parts.getD "collection_name" usual.name
      maxPageSize := ← parts.getD "max_page_size" usual.maxPageSize
      defaultPageSize := ← parts.getD "default_page_size" usual.defaultPageSize
      maxTraversalDepth := ← parts.getD "max_traversal_depth" usual.maxTraversalDepth }

instance : DocumentForm StorageOptions where
  write options :=
    .object [
      ("path", write options.path),
      ("create_if_missing", write options.createIfMissing),
      ("revision_write_buffer_size", write options.revisionWriteBufferSize),
      ("index_write_buffer_size", write options.indexWriteBufferSize),
      ("max_write_buffer_number", write options.maxWriteBufferNumber),
      ("max_background_jobs", write options.maxBackgroundJobs),
      ("block_cache_size", write options.blockCacheSize),
      ("bloom_bits_per_key", write options.bloomBitsPerKey),
      ("compress_revisions", write options.compressRevisions),
      ("sync_commits", write options.syncCommits)]
  read room json := do
    let usual : StorageOptions := default
    let parts ← Parts.ofPartialJson?
      ["path", "create_if_missing", "revision_write_buffer_size", "index_write_buffer_size",
        "max_write_buffer_number", "max_background_jobs", "block_cache_size",
        "bloom_bits_per_key", "compress_revisions", "sync_commits"] room json
    return {
      path := ← parts.getD "path" usual.path
      createIfMissing := ← parts.getD "create_if_missing" usual.createIfMissing
      revisionWriteBufferSize :=
        ← parts.getD "revision_write_buffer_size" usual.revisionWriteBufferSize
      indexWriteBufferSize := ← parts.getD "index_write_buffer_size" usual.indexWriteBufferSize
      maxWriteBufferNumber := ← parts.getD "max_write_buffer_number" usual.maxWriteBufferNumber
      maxBackgroundJobs := ← parts.getD "max_background_jobs" usual.maxBackgroundJobs
      blockCacheSize := ← parts.getD "block_cache_size" usual.blockCacheSize
      bloomBitsPerKey := ← parts.getD "bloom_bits_per_key" usual.bloomBitsPerKey
      compressRevisions := ← parts.getD "compress_revisions" usual.compressRevisions
      syncCommits := ← parts.getD "sync_commits" usual.syncCommits }

end DocumentForm

/-- The configuration in the text of a document, refused if no collection can have it. -/
def CollectionConfig.ofText (text : String) : Outcome CollectionConfig := do
  let config ← DocumentForm.readText CollectionConfig text
  config.check
  return config

end MetadataGraph
