import MetadataGraph.Binary64
import MetadataGraph.Binary64.Decimal
import MetadataGraph.Catalog
import MetadataGraph.Catalog.Category
import MetadataGraph.Collection
import MetadataGraph.Collection.Change
import MetadataGraph.Collection.Config
import MetadataGraph.Collection.Creation
import MetadataGraph.Collection.Element
import MetadataGraph.Collection.Finding
import MetadataGraph.Collection.Labelling
import MetadataGraph.Collection.Operation
import MetadataGraph.Collection.Plan
import MetadataGraph.Collection.Reading
import MetadataGraph.Collection.Replication
import MetadataGraph.Collection.Walking
import MetadataGraph.Document.Catalog
import MetadataGraph.Document.Form
import MetadataGraph.Document.Instance
import MetadataGraph.Document.Json
import MetadataGraph.Document.Reader
import MetadataGraph.Document.Settings
import MetadataGraph.Document.Time
import MetadataGraph.Error
import MetadataGraph.Instance.Classification
import MetadataGraph.Instance.Graph
import MetadataGraph.Instance.Header
import MetadataGraph.Instance.Record
import MetadataGraph.Instance.Status
import MetadataGraph.Instant
import MetadataGraph.Instant.Calendar
import MetadataGraph.Instant.Timestamp
import MetadataGraph.Lookup
import MetadataGraph.NameMap
import MetadataGraph.Pattern
import MetadataGraph.Pattern.CharClass
import MetadataGraph.Pattern.Matching
import MetadataGraph.Pattern.Node
import MetadataGraph.Pattern.Parser
import MetadataGraph.Pattern.Places
import MetadataGraph.Proofs.Binary64
import MetadataGraph.Proofs.Binary64.Exact
import MetadataGraph.Proofs.Catalog
import MetadataGraph.Proofs.Catalog.Hierarchy
import MetadataGraph.Proofs.Collection.Absence
import MetadataGraph.Proofs.Collection.BoundedWalk
import MetadataGraph.Proofs.Collection.Conformance
import MetadataGraph.Proofs.Collection.Convergence
import MetadataGraph.Proofs.Collection.Copies
import MetadataGraph.Proofs.Collection.CopyOrder
import MetadataGraph.Proofs.Collection.CutOff
import MetadataGraph.Proofs.Collection.Element
import MetadataGraph.Proofs.Collection.EndTypes
import MetadataGraph.Proofs.Collection.Execute
import MetadataGraph.Proofs.Collection.Footprint
import MetadataGraph.Proofs.Collection.Integrity
import MetadataGraph.Proofs.Collection.Interleaving
import MetadataGraph.Proofs.Collection.KindStability
import MetadataGraph.Proofs.Collection.LateCommit
import MetadataGraph.Proofs.Collection.Lifecycle
import MetadataGraph.Proofs.Collection.LostUpdate
import MetadataGraph.Proofs.Collection.Neighborhood
import MetadataGraph.Proofs.Collection.OptimisticLock
import MetadataGraph.Proofs.Collection.Ownership
import MetadataGraph.Proofs.Collection.Paths
import MetadataGraph.Proofs.Collection.PinnedReads
import MetadataGraph.Proofs.Collection.Planned
import MetadataGraph.Proofs.Collection.Plans
import MetadataGraph.Proofs.Collection.Purging
import MetadataGraph.Proofs.Collection.ReIdentify
import MetadataGraph.Proofs.Collection.Rehoming
import MetadataGraph.Proofs.Collection.Rewriting
import MetadataGraph.Proofs.Collection.Run
import MetadataGraph.Proofs.Collection.Searches
import MetadataGraph.Proofs.Collection.ShortestPaths
import MetadataGraph.Proofs.Collection.StatusInvariant
import MetadataGraph.Proofs.Collection.Transitions
import MetadataGraph.Proofs.Collection.TypeReferences
import MetadataGraph.Proofs.Collection.TypedSearch
import MetadataGraph.Proofs.Collection.Undo
import MetadataGraph.Proofs.Collection.VersionCount
import MetadataGraph.Proofs.Collection.VersionRange
import MetadataGraph.Proofs.Listing
import MetadataGraph.Proofs.Outcome
import MetadataGraph.Proofs.Properties
import MetadataGraph.Proofs.Search.CanonicalOrder
import MetadataGraph.Proofs.Search.Sequencing
import MetadataGraph.Proofs.Store.Chain
import MetadataGraph.Proofs.Store.Clock
import MetadataGraph.Proofs.Store.Coherent
import MetadataGraph.Proofs.Store.Commit
import MetadataGraph.Proofs.Store.History
import MetadataGraph.Proofs.Store.Key
import MetadataGraph.Proofs.Store.KeyOrder
import MetadataGraph.Proofs.Store.KeyReading
import MetadataGraph.Proofs.Store.Past
import MetadataGraph.Proofs.Store.Reachable
import MetadataGraph.Proofs.Store.Revisions
import MetadataGraph.Proofs.Store.Sequential
import MetadataGraph.Proofs.Store.Ticks
import MetadataGraph.Proofs.Store.Traversal
import MetadataGraph.Proofs.Value.Equality
import MetadataGraph.Proofs.Value.Identity
import MetadataGraph.Proofs.Value.Numbers
import MetadataGraph.Proofs.Value.Order
import MetadataGraph.Proofs.Versioning
import MetadataGraph.Proofs.Walk
import MetadataGraph.Properties
import MetadataGraph.Revision
import MetadataGraph.Search.Predicate
import MetadataGraph.Search.Query
import MetadataGraph.Search.Sequencing
import MetadataGraph.Store
import MetadataGraph.Store.Clock
import MetadataGraph.Store.Guard
import MetadataGraph.Store.Key
import MetadataGraph.Store.Options
import MetadataGraph.Store.Statement
import MetadataGraph.Text.Blank
import MetadataGraph.Text.Letters
import MetadataGraph.Text.Printable
import MetadataGraph.Text.Quoted
import MetadataGraph.Validation
import MetadataGraph.Value
import MetadataGraph.Value.Order
import MetadataGraph.Versioning
import MetadataGraph.Wire.Collection
import MetadataGraph.Wire.Form
import MetadataGraph.Wire.Instance
import MetadataGraph.Wire.Search
import MetadataGraph.Wire.Store
