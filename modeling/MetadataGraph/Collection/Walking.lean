import MetadataGraph.Collection.Finding
import MetadataGraph.Instance.Graph
import MetadataGraph.Versioning

/-!
# Walking

The operations that walk from entity to entity along relationships. A step leads over an accepted
relationship to an accepted entity or proxy at its other end. Walks find the distance of every node
from a start, level by level; what is returned are the entities met and the relationships walked.
-/

namespace MetadataGraph

/-- What a walk accepts. -/
structure WalkFilter where
  /-- Types of which entities must have one, if there are any. -/
  entityTypes : List TypeName
  /-- Types of which relationships must have one, if there are any. -/
  relationshipTypes : List TypeName
  /-- The accepted statuses; none accepts all live ones. -/
  statuses : List Status
  /-- Classifications of which entities must carry one, if there are any. -/
  classifications : List TypeName
  /-- The time to walk at. -/
  asOf : AsOf

/-- A step of a walk. -/
structure Step where
  /-- The relationship that it leads over. -/
  relationship : Relationship
  /-- The node that it leads to. -/
  target : Guid
  /-- The entity there; none if only a proxy is stored. -/
  entity : Option Entity

namespace WalkFilter

variable (filter : WalkFilter)

/-- The filter that looks at statuses only. -/
def ofStatuses (statuses : List Status) (asOf : AsOf) : WalkFilter := ⟨[], [], statuses, [], asOf⟩

/-- Whether a status is accepted. -/
def acceptsStatus (header : Header) : Bool := Query.acceptsStatus filter.statuses header.status

/-- Whether a relationship may be walked over. -/
def acceptsRelationship (relationship : Relationship) : Bool :=
  let types := filter.relationshipTypes
  filter.acceptsStatus relationship.header
    && (types.isEmpty || types.any relationship.header.typeRef.isA)

/-- Whether an entity may be walked to. -/
def acceptsEntity (entity : Entity) : Bool :=
  filter.acceptsStatus entity.header
    && (filter.entityTypes.isEmpty || filter.entityTypes.any entity.header.typeRef.isA)
    && (filter.classifications.isEmpty || filter.classifications.any entity.isClassifiedAs)

/-- The step that a relationship at a node makes possible. Of a proxy only the status counts. -/
def step? (node : Guid) (hop : Hop) : Option Step := do
  guard (filter.acceptsRelationship hop.relationship)
  let other ← hop.relationship.otherEnd? node
  match hop.neighbor with
  | some (.entity entity) =>
    if filter.acceptsEntity entity then some ⟨hop.relationship, other.header.guid, some entity⟩
    else none
  | some (.proxy proxy) =>
    if filter.acceptsStatus proxy.header then some ⟨hop.relationship, other.header.guid, none⟩
    else none
  | _ => none

/-- The steps from a node of a store. -/
def steps (store : Store) (node : Guid) : List Step :=
  (store.traverse node filter.asOf).filterMap (filter.step? node)

end WalkFilter

/-! ## Distances -/

/-- Extend distances by some more levels, given the nodes of the last level. -/
def Walk.explore (next : Guid → List Guid) : (rounds level : Nat) → NameMap Nat → List Guid →
    NameMap Nat
  | 0, _, distances, _ => distances
  | rounds + 1, level, distances, frontier =>
    let reached := ((frontier.flatMap next).filter (!distances.contains ·)).eraseDups
    if reached.isEmpty then distances
    else
      explore next rounds (level + 1)
        (reached.foldl (fun known node => known.insert node (level + 1)) distances) reached

/-- The distances from a start to every node within a number of steps. -/
def Walk.distances (next : Guid → List Guid) (start : Guid) (rounds : Nat) : NameMap Nat :=
  explore next rounds 0 ((∅ : NameMap Nat).insert start 0) [start]

/-- The graph of steps and of the entities that a walk starts from. -/
def Graph.ofSteps (starts : List Entity) (steps : List Step) : Graph where
  entities :=
    let met := starts ++ steps.filterMap (·.entity)
    (NameMap.ofList (met.map fun entity => (entity.header.guid, entity))).values
  relationships :=
    let walked := steps.map (·.relationship)
    (NameMap.ofList (walked.map fun edge => (edge.header.guid, edge))).values

namespace Collection

variable (collection : Collection) (call : Call)

/-- The entity that a walk starts from, which must be stored in full and live. -/
def walkStart (guid : Guid) (asOf : AsOf) : Outcome Entity := do
  let entity ← (collection.find Entity guid asOf).require guid
  entity.header.requireLive
  return entity

/-- A filter must not look into the future and its types must be defined. -/
def checkFilter (filter : WalkFilter) : Outcome Unit := do
  Validation.asOf filter.asOf call.now
  let requireAll (names : List TypeName) (category : TypeCategory) : Outcome Unit :=
    names.forM fun name => do
      let _ ← collection.catalog.require name category
  requireAll filter.entityTypes .entity
  requireAll filter.relationshipTypes .relationship
  requireAll filter.classifications .classification

/-- The number of rounds of a walk of some depth: after as many rounds as there are identities
nothing new is found. -/
def walkRounds (depth : Int32) : Nat :=
  let size := collection.store.size
  if 0 ≤ depth.toInt then min depth.toInt.toNat size
  else (collection.config.maxTraversalDepth.getD size).min size

/-- The distances of the nodes from a start, and the steps of a filter. -/
def distances (filter : WalkFilter) (start : Guid) (rounds : Nat) : NameMap Nat :=
  Walk.distances (fun node => (filter.steps collection.store node).map (·.target)) start rounds

/-- The entities within a depth of an entity, and the relationships walked over. -/
def neighborhood (guid : Guid) (filter : WalkFilter) (depth : Int32) : Outcome Graph := do
  Validation.userId call.user
  Validation.notBlank guid "entityGUID"
  Validation.depth depth
  collection.checkFilter call filter
  let start ← collection.walkStart guid filter.asOf
  let rounds := collection.walkRounds depth
  let inner := (collection.distances filter guid rounds).filter fun _ distance => distance < rounds
  return .ofSteps [start] (inner.keys.flatMap (filter.steps collection.store))

/-- The steps along shortest paths of a given length, from the distances of the nodes from both
ends. -/
def shortestSteps (filter : WalkFilter) (fromStart fromFinish : NameMap Nat) (finish : Guid)
    (length : Nat) : List Step :=
  let onPath := fromStart.filter fun node before =>
    node ≠ finish && (fromFinish.get? node).any (before + · = length)
  onPath.entries.flatMap fun (node, before) =>
    (filter.steps collection.store node).filter fun step =>
      (fromFinish.get? step.target).any (before + 1 + · = length)

/-- The entities and relationships on the shortest paths between two entities; none if no path
connects them. -/
def linking (start finish : Guid) (statuses : List Status) (asOf : AsOf) :
    Outcome (Option Graph) := do
  Validation.userId call.user
  Validation.notBlank start "startEntityGUID"
  Validation.notBlank finish "endEntityGUID"
  Validation.asOf asOf call.now
  let first ← collection.walkStart start asOf
  if start = finish then return some (.ofEntity first)
  let last ← collection.walkStart finish asOf
  let filter := WalkFilter.ofStatuses statuses asOf
  let fromStart := collection.distances filter start collection.store.size
  match fromStart.get? finish with
  | none => return none
  | some length =>
    let fromFinish := collection.distances filter finish length
    return some (.ofSteps [first, last]
      (collection.shortestSteps filter fromStart fromFinish finish length))

/-- A page of the entities that can be reached from an entity, itself included. -/
def related (guid : Guid) (filter : WalkFilter) (sequencing : Sequencing) (start size : Nat) :
    Outcome (Option (List Entity)) := do
  sequencing.check
  let page : Page := ⟨start, ← collection.pageSize size⟩
  let reached ← collection.neighborhood call guid filter (-1)
  return nonEmpty (page.apply (sequencing.sortBy Record.entity reached.entities))

end Collection

end MetadataGraph
