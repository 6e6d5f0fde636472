import MetadataGraph.Catalog
import MetadataGraph.Collection.Config
import MetadataGraph.Collection.Element
import MetadataGraph.Validation

/-!
# Collections

A `Collection` is a store together with the types of its instances and a configuration that says
who it is. Its identity decides what it owns: the instances whose home it is.
-/

namespace MetadataGraph

/-- On whose behalf and at what time an operation is called. -/
structure Call where
  /-- The user. -/
  user : UserId
  /-- The reading of the wall clock. -/
  now : Instant
  deriving DecidableEq

/-- The stamp that a change carries which is made by the call. -/
def Call.stamp (call : Call) : Stamp := ⟨call.user, call.now⟩

/-- A store of instances, their types and the configuration of who keeps them. -/
structure Collection where
  /-- The configuration. -/
  config : CollectionConfig
  /-- The types. -/
  catalog : TypeCatalog
  /-- The instances. -/
  store : Store

namespace Collection

/-- A collection without instances. -/
def new (config : CollectionConfig) (catalog : TypeCatalog) : Outcome Collection := do
  config.check
  return ⟨config, catalog, .empty⟩

/-- The collection's identity. -/
abbrev id (collection : Collection) : CollectionId := collection.config.id

/-- The collection's display name. -/
abbrev name (collection : Collection) : String := collection.config.name

/-- Add a type, unless its name is taken; whether it was added. -/
def addType (collection : Collection) (type : TypeDefinition) : Bool × Collection :=
  let (added, catalog) := collection.catalog.add type
  (added, { collection with catalog })

/-- What a read at a point in time finds of an element. -/
def find (α : Type) [Element α] (collection : Collection) (guid : Guid) (asOf : AsOf) : Lookup α :=
  Element.lookup (collection.store.read guid asOf)

/-- The current element of an identity, or a refusal. -/
def require (α : Type) [Element α] (collection : Collection) (guid : Guid) : Outcome α :=
  (collection.find α guid .now).require guid

/-- The entity of an identity as a proxy, if it is known in any form. -/
def proxy? (collection : Collection) (guid : Guid) : Option Proxy :=
  let found := collection.find Entity guid .now
  let unique := found.found?.elim [] fun entity =>
    collection.catalog.uniqueProperties entity.header.typeName
  found.proxy? unique

/-- The size of a page for a requested size. -/
def pageSize (collection : Collection) (requested : Nat) : Outcome Nat :=
  Validation.pageSize requested collection.config.defaultPageSize collection.config.maxPageSize

end Collection

end MetadataGraph
