import MetadataGraph.Collection.Operation
import MetadataGraph.Collection.Reading
import MetadataGraph.Wire.Instance

/-!
# Wire forms of collections

The wire forms of types, configurations, requests to add instances and the answers of a collection.
-/

namespace MetadataGraph.Wire

/-! ## Types -/

instance : FromWire TypeCategory where
  decode := choice
    [("entity", .entity), ("relationship", .relationship), ("classification", .classification)]

/-- The two types at the ends of a relationship, which stand in a list of exactly two names: a list
of any other length names no ends. -/
def endPair : List TypeName → Option (TypeName × TypeName)
  | [one, two] => some (one, two)
  | _ => none

/-- The properties that identify an entity are declared before the others. -/
instance : FromWire TypeDefinition where
  decode json := do
    let category : TypeCategory ← get json "category"
    let unique : List String ← get json "unique"
    let ends : List TypeName ← get json "ends"
    let entityTypes : List TypeName ← get json "for_types"
    return {
      name := ← get json "name"
      category
      supertype := ← get json "extends"
      properties := unique ++ (← get json "properties")
      uniqueProperties := unique
      validStatuses := ← get json "statuses"
      endTypes := if category = .relationship then endPair ends else none
      validEntityTypes := if category = .classification then entityTypes else [] }

/-! ## Configuration -/

instance : ToWire CollectionConfig where
  encode config :=
    .object [("collection_id", encode config.id), ("collection_name", encode config.name),
      ("max_page_size", encode config.maxPageSize),
      ("default_page_size", encode config.defaultPageSize),
      ("max_traversal_depth", encode config.maxTraversalDepth)]

instance : FromWire CollectionConfig where
  decode json := do
    let usual : CollectionConfig := default
    return {
      id := ← getD json "collection_id" usual.id
      name := ← getD json "collection_name" usual.name
      maxPageSize := ← getD json "max_page_size" usual.maxPageSize
      defaultPageSize := ← getD json "default_page_size" usual.defaultPageSize
      maxTraversalDepth := ← get json "max_traversal_depth" }

/-- What a collection tells of itself. -/
def encodeDescription (config : CollectionConfig) : Json :=
  .object [("id", encode config.id), ("name", encode config.name),
    ("max_page_size", encode config.maxPageSize),
    ("default_page_size", encode config.defaultPageSize),
    ("max_traversal_depth", encode config.maxTraversalDepth)]

/-! ## Requests -/

/-- The external source of a new instance, if one is named. -/
def decodeSource (json : Json) : Decode (Option ExternalSource) := do
  match ← get json "source" with
  | none => return none
  | some id => return some ⟨id, ← get json "source_name"⟩

/-- An entity to add, of an external source if `external` is set. -/
def decodeNewEntity (external : Bool) (json : Json) : Decode NewEntity := do
  return {
    typeName := ← get json "type"
    properties := ← get json "properties"
    classifications := ← get json "classifications"
    status := ← getD json "status" .active
    source := ← if external then decodeSource json else pure none }

/-- A relationship to add, of an external source if `external` is set. -/
def decodeNewRelationship (external : Bool) (json : Json) : Decode NewRelationship := do
  return {
    typeName := ← get json "type"
    properties := ← get json "properties"
    endOne := ← get json "one"
    endTwo := ← get json "two"
    status := ← getD json "status" .active
    source := ← if external then decodeSource json else pure none }

/-! ## Answers -/

/-- The form of a reply. -/
def encodeReply : Reply → Json
  | .written record => encode record
  | .done => encode ()
  | .copied .applied => .string "APPLIED"
  | .copied .unchanged => .string "UNCHANGED"

instance : ToWire EntitySummary where
  encode summary :=
    .object [("header", encode summary.header),
      ("classifications", encode summary.classifications), ("is_proxy", encode summary.isProxy)]

mutual

/-- A form in which every instance is cut down to its identity, version and status. -/
def brief : Json → Json
  | .array items => .array (briefItems items)
  | .object members =>
    match Entries.find? "header" members with
    | some header => .array [part header "guid", part header "version", part header "status"]
    | none => .object (briefMembers members)
  | json => json

/-- The brief forms of a list. -/
def briefItems : List Json → List Json
  | [] => []
  | json :: rest => brief json :: briefItems rest

/-- The brief forms of named forms. -/
def briefMembers : List (String × Json) → List (String × Json)
  | [] => []
  | (name, json) :: rest => (name, brief json) :: briefMembers rest

end

end MetadataGraph.Wire
