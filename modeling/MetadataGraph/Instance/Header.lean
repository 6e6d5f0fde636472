import MetadataGraph.Instance.Status
import MetadataGraph.Instant
import MetadataGraph.Properties

/-!
# Headers

Every instance carries a header: its identity, type, ownership, version, status and audit trail.
-/

namespace MetadataGraph

/-- The type of an instance, with the names of its supertypes, nearest first. -/
structure TypeRef where
  /-- The type's name. -/
  name : TypeName
  /-- The names of its supertypes when the reference was made. -/
  supertypes : List TypeName
  deriving DecidableEq, Inhabited

namespace TypeRef

/-- Whether the type has the given name or a supertype of that name. -/
def isA (type : TypeRef) (name : TypeName) : Bool :=
  type.name = name || type.supertypes.contains name

end TypeRef

/-- The user and the time of a change. -/
structure Stamp where
  /-- Who changes. -/
  user : UserId
  /-- When. -/
  time : Instant
  deriving DecidableEq

/-- Identity, ownership, version and audit trail of an instance. -/
structure Header where
  /-- The identity. -/
  guid : Guid
  /-- The type. -/
  typeRef : TypeRef
  /-- The collection or external source that owns the instance. -/
  home : CollectionId
  /-- The owner's display name. -/
  homeName : Option String
  /-- Where the instance originated. -/
  provenance : Provenance
  /-- The collection that replicates an instance of an external source. -/
  replicatedBy : Option CollectionId
  /-- Counts the accepted changes from 1. -/
  version : UInt64
  /-- The lifecycle status. -/
  status : Status
  /-- The status held just before a soft delete. -/
  statusOnDelete : Option Status
  /-- Who created the instance. -/
  createdBy : UserId
  /-- When it was created. -/
  createdAt : Instant
  /-- Who changed it last. -/
  updatedBy : Option UserId
  /-- When it was changed last. -/
  updatedAt : Option Instant
  /-- The identity it had before it was re-identified. -/
  reIdentifiedFrom : Option Guid
  deriving DecidableEq, Inhabited

namespace Header

/-- The header of a new, active instance of the cohort. -/
def new (guid : Guid) (typeRef : TypeRef) (home : CollectionId) (stamp : Stamp) : Header where
  guid
  typeRef
  home
  homeName := none
  provenance := .cohort
  replicatedBy := none
  version := 1
  status := .active
  statusOnDelete := none
  createdBy := stamp.user
  createdAt := stamp.time
  updatedBy := none
  updatedAt := none
  reIdentifiedFrom := none

/-- Whether the instance is soft-deleted. -/
def isDeleted (header : Header) : Bool := header.status.isDeleted

/-- Whether a collection owns the instance. -/
def isHomedIn (header : Header) (collection : CollectionId) : Bool := header.home = collection

/-- Whether a collection may change the instance: it owns it or replicates it. -/
def isUpdatableBy (header : Header) (collection : CollectionId) : Bool :=
  header.isHomedIn collection || header.replicatedBy = some collection

/-- The time of the latest change. -/
def lastChangedAt (header : Header) : Instant := header.updatedAt.getD header.createdAt

/-- The name of the instance's type. -/
abbrev typeName (header : Header) : TypeName := header.typeRef.name

end Header

end MetadataGraph
