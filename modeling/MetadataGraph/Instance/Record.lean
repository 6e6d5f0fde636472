import MetadataGraph.Instance.Classification

/-!
# Instances

The three kinds of instances that a store holds: entities, proxies that stand for entities known
by their identity only, and relationships between two entities. A `Record` is any of them.
-/

namespace MetadataGraph

/-! ## Entities and proxies -/

/-- A vertex of the graph: a typed instance with properties and classifications. -/
structure Entity where
  /-- Identity, ownership and version. -/
  header : Header
  /-- The entity's properties. -/
  properties : Properties
  /-- The classifications by name. -/
  classifications : NameMap Classification
  deriving DecidableEq

/-- What is known of an entity that need not be stored in full. -/
structure Proxy where
  /-- The entity's header. -/
  header : Header
  /-- The properties that identify the entity. -/
  uniqueProperties : Properties
  deriving DecidableEq

namespace Entity

/-- An entity with the classifications of a list, a later one replacing an earlier of its name. -/
def new (header : Header) (properties : Properties) (classifications : List Classification) :
    Entity where
  header
  properties
  classifications := .ofList (classifications.map fun c => (c.name, c))

/-- The classification of a name. -/
def classification? (entity : Entity) (name : TypeName) : Option Classification :=
  entity.classifications.get? name

/-- Whether the entity carries a classification of a name. -/
def isClassifiedAs (entity : Entity) (name : TypeName) : Bool :=
  entity.classifications.contains name

/-- The entity with a classification put on it, replacing one of the same name. -/
def withClassification (entity : Entity) (classification : Classification) : Entity :=
  { entity with
    classifications := entity.classifications.insert classification.name classification }

/-- The entity without the classification of a name. -/
def withoutClassification (entity : Entity) (name : TypeName) : Entity :=
  { entity with classifications := entity.classifications.erase name }

/-- The proxy of the entity that keeps the named properties. -/
def toProxy (entity : Entity) (uniqueProperties : List String) : Proxy where
  header := entity.header
  uniqueProperties := Properties.project entity.properties uniqueProperties

end Entity

namespace Proxy

/-- The entity with the proxy's properties and no classifications. -/
def toEntity (proxy : Proxy) : Entity := ⟨proxy.header, proxy.uniqueProperties, ∅⟩

/-- Whether two proxies have the same content, floats compared as numbers. -/
def equal (a b : Proxy) : Bool :=
  a.header = b.header && a.uniqueProperties.equal b.uniqueProperties

end Proxy

/-! ## Relationships -/

/-- An edge of the graph: a typed, directed connection of two entities. -/
structure Relationship where
  /-- Identity, ownership and version. -/
  header : Header
  /-- The relationship's properties. -/
  properties : Properties
  /-- The entity at end one. -/
  endOne : Proxy
  /-- The entity at end two. -/
  endTwo : Proxy
  deriving DecidableEq

namespace Relationship

/-- The identity of the entity at end one. -/
abbrev endOneGuid (relationship : Relationship) : Guid := relationship.endOne.header.guid

/-- The identity of the entity at end two. -/
abbrev endTwoGuid (relationship : Relationship) : Guid := relationship.endTwo.header.guid

/-- Whether an entity stands at one of the ends. -/
def references (relationship : Relationship) (guid : Guid) : Bool :=
  relationship.endOneGuid = guid || relationship.endTwoGuid = guid

/-- The entity at the other end than the given one, which is end two if both are the given one. -/
def otherEnd? (relationship : Relationship) (guid : Guid) : Option Proxy :=
  if relationship.endOneGuid = guid then some relationship.endTwo
  else if relationship.endTwoGuid = guid then some relationship.endOne
  else none

/-- The relationship with a proxy put at every end where a given entity stands. -/
def replaceEnds (relationship : Relationship) (guid : Guid) (proxy : Proxy) : Relationship :=
  { relationship with
    endOne := if relationship.endOneGuid = guid then proxy else relationship.endOne
    endTwo := if relationship.endTwoGuid = guid then proxy else relationship.endTwo }

end Relationship

/-! ## Common access -/

/-- What all kinds of instances have in common: a header and properties that can be replaced. -/
class Instance (α : Type) where
  /-- The header. -/
  header : α → Header
  /-- Replace the header. -/
  setHeader : α → Header → α
  /-- The properties; those of a proxy identify its entity. -/
  properties : α → Properties
  /-- Replace the properties. -/
  setProperties : α → Properties → α
  /-- A replaced header is read back. -/
  header_setHeader : ∀ a h, header (setHeader a h) = h
  /-- Replacing the header by itself changes nothing. -/
  setHeader_header : ∀ a, setHeader a (header a) = a
  /-- The last replacement counts. -/
  setHeader_setHeader : ∀ a g h, setHeader (setHeader a g) h = setHeader a h
  /-- Properties do not reach into the header. -/
  header_setProperties : ∀ a p, header (setProperties a p) = header a

namespace Instance

variable {α : Type} [Instance α]

attribute [simp] header_setHeader setHeader_header setHeader_setHeader header_setProperties

/-- The instance's identity. -/
def guid (a : α) : Guid := (header a).guid

/-- The instance's version. -/
def version (a : α) : UInt64 := (header a).version

/-- The name of the instance's type. -/
def typeName (a : α) : TypeName := (header a).typeName

end Instance

instance : Instance Entity where
  header := Entity.header
  setHeader entity header := { entity with header }
  properties := Entity.properties
  setProperties entity properties := { entity with properties }
  header_setHeader _ _ := rfl
  setHeader_header _ := rfl
  setHeader_setHeader _ _ _ := rfl
  header_setProperties _ _ := rfl

instance : Instance Proxy where
  header := Proxy.header
  setHeader proxy header := { proxy with header }
  properties := Proxy.uniqueProperties
  setProperties proxy properties := { proxy with uniqueProperties := properties }
  header_setHeader _ _ := rfl
  setHeader_header _ := rfl
  setHeader_setHeader _ _ _ := rfl
  header_setProperties _ _ := rfl

instance : Instance Relationship where
  header := Relationship.header
  setHeader relationship header := { relationship with header }
  properties := Relationship.properties
  setProperties relationship properties := { relationship with properties }
  header_setHeader _ _ := rfl
  setHeader_header _ := rfl
  setHeader_setHeader _ _ _ := rfl
  header_setProperties _ _ := rfl

/-! ## Records -/

/-- The kinds of records. -/
inductive RecordKind where
  | entity
  | proxy
  | relationship
  deriving DecidableEq, Inhabited

/-- Anything that a store holds under an identity. -/
inductive Record where
  /-- An entity in full. -/
  | entity (entity : Entity)
  /-- An entity known by its proxy only. -/
  | proxy (proxy : Proxy)
  /-- A relationship. -/
  | relationship (relationship : Relationship)
  deriving DecidableEq

namespace Record

/-- The header. -/
def header : Record → Header
  | entity e => e.header
  | proxy p => p.header
  | relationship r => r.header

/-- The identity. -/
abbrev guid (record : Record) : Guid := record.header.guid

/-- The kind. -/
def kind : Record → RecordKind
  | entity _ => .entity
  | proxy _ => .proxy
  | relationship _ => .relationship

/-- The properties; those of a proxy identify its entity. -/
def properties : Record → Properties
  | entity e => e.properties
  | proxy p => p.uniqueProperties
  | relationship r => r.properties

/-- Whether the record stands for an entity, in full or by proxy. -/
def isEntityLike : Record → Bool
  | entity _ | proxy _ => true
  | relationship _ => false

/-- The identities at the two ends of a relationship. -/
def ends? : Record → Option (Guid × Guid)
  | relationship r => some (r.endOneGuid, r.endTwoGuid)
  | _ => none

/-- The entity stored in full. -/
def entity? : Record → Option Entity
  | entity e => some e
  | _ => none

/-- The relationship stored. -/
def relationship? : Record → Option Relationship
  | relationship r => some r
  | _ => none

end Record

instance : Coe Entity Record := ⟨.entity⟩

instance : Coe Proxy Record := ⟨.proxy⟩

instance : Coe Relationship Record := ⟨.relationship⟩

end MetadataGraph
