import MetadataGraph.Instance.Header

/-!
# Classifications

A classification labels one entity with a name and properties of its own. It has an owner of its
own too, which need not be the owner of the entity.
-/

namespace MetadataGraph

/-- How a classification came to an entity. -/
inductive ClassificationOrigin where
  /-- It was assigned to the entity itself. -/
  | assigned
  /-- It was propagated from another instance. -/
  | propagated (origin : Guid)
  deriving DecidableEq, Inhabited

/-- A named label on one entity. -/
structure Classification where
  /-- The classification type's name. -/
  name : TypeName
  /-- How it came to the entity. -/
  origin : ClassificationOrigin
  /-- Its owner. -/
  home : CollectionId
  /-- Where it originated. -/
  provenance : Provenance
  /-- The collection that replicates it for an external source. -/
  replicatedBy : Option CollectionId
  /-- Its properties. -/
  properties : Properties
  /-- Who created it. -/
  createdBy : UserId
  /-- When it was created. -/
  createdAt : Instant
  /-- Who changed it last. -/
  updatedBy : Option UserId
  /-- When it was changed last. -/
  updatedAt : Option Instant
  deriving DecidableEq

namespace Classification

/-- A classification of the cohort, assigned to its entity, without properties. -/
def new (name : TypeName) (home : CollectionId) (stamp : Stamp) : Classification where
  name
  origin := .assigned
  home
  provenance := .cohort
  replicatedBy := none
  properties := ∅
  createdBy := stamp.user
  createdAt := stamp.time
  updatedBy := none
  updatedAt := none

/-- The classification after a change of its properties. -/
def updated (classification : Classification) (properties : Properties) (stamp : Stamp) :
    Classification :=
  { classification with
    properties
    updatedBy := some stamp.user
    updatedAt := some stamp.time }

/-- Whether two classifications have the same content, floats compared as numbers. -/
def equal (a b : Classification) : Bool :=
  a.properties.equal b.properties && { a with properties := b.properties } = b

end Classification

end MetadataGraph
