import MetadataGraph.Error
import MetadataGraph.Instance.Record

/-!
# Look-ups

What a read for an instance of one kind finds: the instance, only a proxy of it, or nothing.
-/

namespace MetadataGraph

/-- What is known of an instance. -/
inductive Lookup (α : Type) where
  /-- The instance itself. -/
  | found (value : α)
  /-- Only a proxy. -/
  | proxyOnly (proxy : Proxy)
  /-- Nothing. -/
  | notFound
  deriving DecidableEq

namespace Lookup

variable {α β : Type}

/-- Whether the instance itself was found. -/
def isFound : Lookup α → Bool
  | found _ => true
  | _ => false

/-- Whether anything was found. -/
def isKnown : Lookup α → Bool
  | notFound => false
  | _ => true

/-- The instance, if it was found. -/
def found? : Lookup α → Option α
  | found value => some value
  | _ => none

/-- The look-up with the instance replaced by its image. -/
def map (f : α → β) : Lookup α → Lookup β
  | found value => found (f value)
  | proxyOnly proxy => proxyOnly proxy
  | notFound => notFound

/-- The instance, or a refusal that names what was looked for. -/
def require (what : String) : Lookup α → Outcome α
  | found value => .ok value
  | proxyOnly _ => .error (.refused (.proxyOnly what))
  | notFound => .error (.refused (.notKnown what))

/-- What a stored record says of an entity. -/
def ofEntityRecord : Option Record → Lookup Entity
  | some (.entity entity) => found entity
  | some (.proxy proxy) => proxyOnly proxy
  | some (.relationship _) | none => notFound

/-- What a stored record says of a relationship. -/
def ofRelationshipRecord : Option Record → Lookup Relationship
  | some (.relationship relationship) => found relationship
  | _ => notFound

/-- The entity as a proxy with the named properties, whichever form was found. -/
def proxy? (uniqueProperties : List String) : Lookup Entity → Option Proxy
  | found entity => some (entity.toProxy uniqueProperties)
  | proxyOnly proxy => some proxy
  | notFound => none

/-- The header of the instance, whichever form was found. -/
def header? [Instance α] : Lookup α → Option Header
  | found value => some (Instance.header value)
  | proxyOnly proxy => some proxy.header
  | notFound => none

/-- Whether the entity was found and is deleted. -/
def isDeleted (lookup : Lookup Entity) : Bool := lookup.header?.any Header.isDeleted

end Lookup

end MetadataGraph
