import MetadataGraph.Instance.Record

/-!
# Graphs

A graph is a set of entities with relationships between them, as a traversal returns it.
-/

namespace MetadataGraph

/-- Entities and the relationships that connect them. -/
structure Graph where
  /-- The vertices. -/
  entities : List Entity
  /-- The edges. -/
  relationships : List Relationship
  deriving DecidableEq

namespace Graph

/-- The graph of one entity alone. -/
def ofEntity (entity : Entity) : Graph := ⟨[entity], []⟩

/-- Whether the graph holds nothing. -/
def isEmpty (graph : Graph) : Bool := graph.entities.isEmpty && graph.relationships.isEmpty

/-- The identities of the entities, in the graph's order. -/
def entityGuids (graph : Graph) : List Guid := graph.entities.map (·.header.guid)

/-- The identities of the relationships, in the graph's order. -/
def relationshipGuids (graph : Graph) : List Guid := graph.relationships.map (·.header.guid)

/-- The graph with both sides in the order of their identities, equal ones as they were. -/
def sorted (graph : Graph) : Graph where
  entities := graph.entities.mergeSort fun a b => a.header.guid ≤ b.header.guid
  relationships := graph.relationships.mergeSort fun a b => a.header.guid ≤ b.header.guid

end Graph

end MetadataGraph
