import MetadataGraph.Error
import MetadataGraph.Text.Blank

/-!
# Configuration of a collection

Who a collection is and how much it gives at once.
-/

namespace MetadataGraph

/-- The configuration of a collection. -/
structure CollectionConfig where
  /-- The collection's identity; it owns the instances whose home this is. -/
  id : CollectionId
  /-- Its display name. -/
  name : String
  /-- The largest page that can be asked for. -/
  maxPageSize : Nat
  /-- The size of a page when none is asked for. -/
  defaultPageSize : Nat
  /-- How far a traversal without a bound goes; none for no limit. -/
  maxTraversalDepth : Option Nat
  deriving DecidableEq

namespace CollectionConfig

/-- The usual configuration for an identity and a name. -/
def new (id : CollectionId) (name : String) : CollectionConfig where
  id
  name
  maxPageSize := 1000
  defaultPageSize := 100
  maxTraversalDepth := none

instance : Inhabited CollectionConfig := ⟨new "local" "local"⟩

/-- Small pages and bounded traversals, for tests. -/
def testing : CollectionConfig where
  id := "test-collection"
  name := "test"
  maxPageSize := 50
  defaultPageSize := 20
  maxTraversalDepth := some 32

/-- Refuse a configuration that no collection can have. -/
def check (config : CollectionConfig) : Outcome Unit := do
  .require (!Text.isBlank config.id) (.invalidParameter .blankCollectionId)
  .require (config.maxPageSize ≠ 0) (.invalidParameter .emptyPages)

end CollectionConfig

end MetadataGraph
