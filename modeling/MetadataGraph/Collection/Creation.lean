import MetadataGraph.Collection.Plan

/-!
# Creation

The plans of the operations that add entities, relationships and proxies. A new instance belongs to
the collection, or to an external source that the collection replicates.
-/

namespace MetadataGraph

/-- A system outside the cohort that owns instances. -/
structure ExternalSource where
  /-- Its identity. -/
  id : CollectionId
  /-- Its display name. -/
  name : String
  deriving DecidableEq

/-- An entity to add. -/
structure NewEntity where
  /-- The name of its type. -/
  typeName : TypeName
  /-- Its properties. -/
  properties : Properties
  /-- Its classifications, of which a later one replaces an earlier one of its name. -/
  classifications : List Classification
  /-- Its status. -/
  status : Status
  /-- Its owner; none for the collection itself. -/
  source : Option ExternalSource
  deriving DecidableEq

/-- A relationship to add. -/
structure NewRelationship where
  /-- The name of its type. -/
  typeName : TypeName
  /-- Its properties. -/
  properties : Properties
  /-- The entity at end one. -/
  endOne : Guid
  /-- The entity at end two. -/
  endTwo : Guid
  /-- Its status. -/
  status : Status
  /-- Its owner; none for the collection itself. -/
  source : Option ExternalSource
  deriving DecidableEq

namespace Collection

variable (collection : Collection)

/-- The header of a new instance of the collection, or of an external source that it replicates. -/
def newHeader (call : Call) (guid : Guid) (typeRef : TypeRef) (status : Status) :
    Option ExternalSource → Header
  | none =>
    { Header.new guid typeRef collection.id call.stamp with
      homeName := some collection.name
      status }
  | some source =>
    { Header.new guid typeRef source.id call.stamp with
      homeName := some source.name
      provenance := .externalSource
      replicatedBy := some collection.id
      status }

/-- An external source must be named. -/
def checkSource : Option ExternalSource → Outcome Unit
  | none => .ok ()
  | some source => Validation.notBlank source.id "externalSourceGUID"

/-- The properties of a classification must be declared and it must apply to a type. -/
def checkClassification (entityType : TypeName) (classification : Classification) :
    Outcome Unit := do
  collection.catalog.checkClassification classification.name entityType
  collection.catalog.checkProperties classification.name classification.properties

/-- Check a new entity against the types; the reference to its type. -/
def checkNewEntity (entity : NewEntity) : Outcome TypeRef := do
  Validation.notBlank entity.typeName "entityTypeName"
  .require (!entity.status.isDeleted) (.invalidParameter .entityCreatedDeleted)
  let typeRef ← collection.catalog.typeRef entity.typeName .entity
  collection.catalog.checkProperties entity.typeName entity.properties
  collection.catalog.checkStatus entity.typeName entity.status
  entity.classifications.forM (collection.checkClassification entity.typeName)
  return typeRef

/-- Plan to add an entity under a fresh identity. -/
def planAddEntity (call : Call) (fresh : Guid) (entity : NewEntity) : Outcome Plan := do
  Validation.userId call.user
  checkSource entity.source
  let typeRef ← collection.checkNewEntity entity
  let header := collection.newHeader call fresh typeRef entity.status entity.source
  return .create (Entity.new header entity.properties entity.classifications)

/-- The live entity at an end of a new relationship, as a proxy. -/
def endpoint (guid : Guid) (parameter : String) : Outcome Proxy := do
  Validation.notBlank guid parameter
  let proxy ← .ofOption (.notKnown guid) (collection.proxy? guid)
  .require (!proxy.header.isDeleted) (.alreadyDeleted guid)
  return proxy

/-- Plan to add a relationship under a fresh identity. -/
def planAddRelationship (call : Call) (fresh : Guid) (relationship : NewRelationship) :
    Outcome Plan := do
  checkSource relationship.source
  Validation.userId call.user
  Validation.notBlank relationship.typeName "relationshipTypeName"
  .require (!relationship.status.isDeleted) (.invalidParameter .relationshipCreatedDeleted)
  let typeRef ← collection.catalog.typeRef relationship.typeName .relationship
  collection.catalog.checkProperties relationship.typeName relationship.properties
  collection.catalog.checkStatus relationship.typeName relationship.status
  let endOne ← collection.endpoint relationship.endOne "entityOneGUID"
  let endTwo ← collection.endpoint relationship.endTwo "entityTwoGUID"
  collection.catalog.checkEnds relationship.typeName endOne.header.typeName endTwo.header.typeName
  let header := collection.newHeader call fresh typeRef relationship.status relationship.source
  return .create (Relationship.mk header relationship.properties endOne endTwo)

/-- Plan to add a proxy, which an entity in full makes unnecessary. -/
def planAddProxy (call : Call) (proxy : Proxy) : Outcome Plan := do
  Validation.userId call.user
  Validation.notBlank proxy.header.guid "entityProxy.guid"
  let _ ← collection.catalog.require proxy.header.typeName .entity
  if (collection.find Entity proxy.header.guid .now).isFound then return .nothing .done
  return ⟨[.putProxy proxy], .done⟩

end Collection

end MetadataGraph
