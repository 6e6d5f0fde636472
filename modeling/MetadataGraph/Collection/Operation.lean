import MetadataGraph.Collection.Change
import MetadataGraph.Collection.Labelling
import MetadataGraph.Collection.Replication

/-!
# Operations

Every operation that changes a collection, as a value: how it is planned from what is stored, and
how it is carried out. A refused operation leaves the collection as it was.
-/

namespace MetadataGraph

/-- An operation that changes a collection. -/
inductive Operation where
  /-- Add an entity. -/
  | addEntity (entity : NewEntity)
  /-- Add a relationship. -/
  | addRelationship (relationship : NewRelationship)
  /-- Add a proxy. -/
  | addProxy (proxy : Proxy)
  /-- Change an element. -/
  | change (kind : ElementKind) (guid : Guid) (change : Change)
  /-- Put a classification on an entity. -/
  | classify (guid : Guid) (name : TypeName) (source : Option CollectionId)
      (origin : ClassificationOrigin) (properties : Properties)
  /-- Take a classification away from an entity. -/
  | declassify (guid : Guid) (name : TypeName)
  /-- Replace the properties of a classification. -/
  | reclassify (guid : Guid) (name : TypeName) (properties : Properties)
  /-- Save the copy of an entity. -/
  | saveEntity (entity : Entity)
  /-- Save the copy of a relationship. -/
  | saveRelationship (relationship : Relationship)
  /-- Remove the copy of an element. -/
  | purgeCopy (kind : ElementKind) (guid : Guid) (type : TypeName) (home : CollectionId)
  /-- Put the copy of a classification on an entity. -/
  | saveClassification (entity : Entity) (classification : Classification)
  /-- Take the copy of a classification away from an entity. -/
  | purgeClassification (entity : Entity) (classification : Classification)
  deriving DecidableEq

/-- Whether the operation uses up a fresh identity. -/
def Operation.isCreation : Operation → Bool
  | addEntity _ | addRelationship _ => true
  | _ => false

namespace Collection

/-- Plan an operation; one that creates an instance takes the identity `fresh` for it. -/
def plan (collection : Collection) (call : Call) (fresh : Guid) : Operation → Outcome Plan
  | .addEntity entity => collection.planAddEntity call fresh entity
  | .addRelationship relationship => collection.planAddRelationship call fresh relationship
  | .addProxy proxy => collection.planAddProxy call proxy
  | .change kind guid change => collection.planChange kind.Carrier call guid change
  | .classify guid name source origin properties =>
    collection.planClassify call guid name source origin properties
  | .declassify guid name => collection.planDeclassify call guid name
  | .reclassify guid name properties => collection.planReclassify call guid name properties
  | .saveEntity entity => collection.planSaveEntity call entity
  | .saveRelationship relationship => collection.planSaveRelationship call relationship
  | .purgeCopy kind guid type home => collection.planPurgeCopy call kind.Carrier guid type home
  | .saveClassification entity classification =>
    collection.planSaveClassification call entity classification
  | .purgeClassification entity classification =>
    collection.planPurgeClassification call entity classification

/-- Carry out an operation. -/
def execute (collection : Collection) (call : Call) (fresh : Guid) (operation : Operation) :
    Outcome (Collection × Reply) := do
  let plan ← collection.plan call fresh operation
  collection.commit plan call.now

end Collection

end MetadataGraph
